import TemplatedMarkup.Decimal.Shortest

/-!
# Numbers as text

Integers and doubles are written in plain positional notation, without exponents, and read back
from text with an optional sign, fraction and exponent.
-/

namespace TemplatedMarkup
namespace Decimal

/-- The digits of an integer, after a minus sign when it is negative. -/
def integerText (value : Int) : List Char :=
  if value < 0 then '-' :: Nat.toDigits 10 value.natAbs else Nat.toDigits 10 value.natAbs

/-- The natural number that a list of ASCII digits spells. -/
def digitsValue (digits : List Char) : Nat :=
  Nat.ofDigitChars 10 digits 0

/-- A decimal in positional notation, without zeros at the end of its fraction. -/
def positional (decimal : Scientific) : List Char :=
  let digits := Nat.toDigits 10 decimal.digits
  if 0 ≤ decimal.exponent then
    digits ++ List.replicate decimal.exponent.toNat '0'
  else
    let places := (-decimal.exponent).toNat
    let padded := List.replicate (places + 1 - digits.length) '0' ++ digits
    let whole := padded.take (padded.length - places)
    let fraction := (padded.drop (padded.length - places)).reverse.dropWhile (· == '0')
    if fraction.isEmpty then whole else whole ++ '.' :: fraction.reverse

/-- The magnitude of a double: its fewest digits, written positionally. -/
def magnitudeText : Magnitude → List Char
  | .nan => "nan".toList
  | .infinite => "inf".toList
  | .finite significand exponent => positional (shortest significand exponent)

/-- A double as text: a minus sign if it is negative, then its magnitude. -/
def floatText (value : Float) : List Char :=
  let digits := magnitudeText (magnitude value)
  if isNegative value && !value.isNaN then '-' :: digits else digits

/-- The bound below which an integral double is written with a fraction of one zero. -/
def fractionBound : Float := 1e16

/--
A double as a literal.  An integral double below the bound is written exactly, with `.0` after it;
every other double as `floatText` writes it.
-/
def floatLiteral (value : Float) : List Char :=
  if isIntegral value && value.abs < fractionBound then
    let whole := Nat.toDigits 10 (wholePart value) ++ ".0".toList
    if isNegative value then '-' :: whole else whole
  else floatText value

/-- Take a sign off a text; the flag tells whether it is a minus sign. -/
def readSign : List Char → Bool × List Char
  | '-' :: rest => (true, rest)
  | '+' :: rest => (false, rest)
  | rest => (false, rest)

/-- Read a natural number: one ASCII digit or more and nothing else. -/
def readNatural? (text : List Char) : Option Nat :=
  if text.isEmpty || !text.all Char.isDigit then none else some (digitsValue text)

/-- Read a natural number that may have a plus sign. -/
def readUnsigned? : List Char → Option Nat
  | '+' :: rest => readNatural? rest
  | rest => readNatural? rest

/-- Read an integer: an optional sign and ASCII digits. -/
def readInteger? (text : List Char) : Option Int :=
  let (negative, rest) := readSign text
  (readNatural? rest).map fun natural => if negative then -(natural : Int) else natural

/-- Read an integer that fits in 64 bits. -/
def readInt64? (text : List Char) : Option Int64 :=
  match readInteger? text with
  | some value =>
      if Int64.minValue.toInt ≤ value ∧ value ≤ Int64.maxValue.toInt then some (.ofInt value)
      else none
  | none => none

/-- Read the part of a number from its exponent mark on; no mark means the exponent zero. -/
def readExponent? : List Char → Option Int
  | [] => some 0
  | mark :: rest => if mark == 'e' || mark == 'E' then readInteger? rest else none

/-- The double nearest to digits around a decimal point and an exponent. -/
def ofDigits
    (negative : Bool)
    (whole fraction : List Char)
    (exponent : Int) : Float :=
  nearest negative (digitsValue (whole ++ fraction)) (exponent - fraction.length)

/-- Read an unsigned decimal number, with digits before or after an optional point. -/
def readDecimal?
    (negative : Bool)
    (text : List Char) : Option Float :=
  let whole := text.takeWhile Char.isDigit
  let rest := text.dropWhile Char.isDigit
  let (fraction, rest) :=
    match rest with
    | '.' :: rest => (rest.takeWhile Char.isDigit, rest.dropWhile Char.isDigit)
    | rest => ([], rest)
  if whole.isEmpty && fraction.isEmpty then none
  else (readExponent? rest).map (ofDigits negative whole fraction)

/-- Read a double: an optional sign, then a decimal number or the name of a special value. -/
def readFloat? (text : List Char) : Option Float :=
  let (negative, rest) := readSign text
  match String.ofList (rest.map Char.toLower) with
  | "nan" => some (0.0 / 0.0)
  | "inf" | "infinity" => some (withSign negative infinityBits)
  | _ => readDecimal? negative rest

end Decimal
end TemplatedMarkup
