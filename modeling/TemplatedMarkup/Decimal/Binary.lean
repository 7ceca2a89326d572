/-!
# Doubles as exact binary numbers

A finite double is an integer times a power of two.  Decoding gives these two numbers exactly, and
rounding takes a quotient of naturals to the nearest double, a tie going to the even neighbour.
-/

namespace TemplatedMarkup
namespace Decimal

/-- The magnitude of a double. -/
inductive Magnitude where
  /-- Not a number. -/
  | nan
  /-- An infinity. -/
  | infinite
  /-- The number `significand * 2 ^ exponent`. -/
  | finite (significand : Nat) (exponent : Int)
deriving DecidableEq, Repr

/-- A power of two; a negative exponent counts as zero. -/
def twoPower (exponent : Int) : Nat :=
  Nat.pow 2 exponent.toNat

/-- A power of ten; a negative exponent counts as zero. -/
def tenPower (exponent : Int) : Nat :=
  Nat.pow 10 exponent.toNat

/-- How many doubles there are from a power of two on to the next: 52 bits tell them apart. -/
def binadeSize : Nat := 0x10000000000000

/-- The bits of infinity. -/
def infinityBits : Nat := 2047 * binadeSize

/-- The sign bit. -/
def signBit : Nat := 0x8000000000000000

/-- Whether the sign bit of a double is set. -/
def isNegative (value : Float) : Bool :=
  value.toBits >>> 63 == 1

/-- The magnitude that the bits of a double stand for. -/
def magnitude (value : Float) : Magnitude :=
  let bits := value.toBits.toNat
  let fraction : Nat := bits % binadeSize
  let biased : Nat := bits / binadeSize % 2048
  if biased = 2047 then
    if fraction = 0 then .infinite else .nan
  else if biased = 0 then .finite fraction (-1074)
  else .finite (binadeSize + fraction) ((biased : Int) - 1075)

/-- The double with the given sign and the bits of a magnitude. -/
def withSign
    (negative : Bool)
    (bits : Nat) : Float :=
  Float.ofBits (UInt64.ofNat (if negative then signBit + bits else bits))

/-- The quotient of two naturals rounded to the nearest natural, a tie going to the even one. -/
def roundQuotient
    (numerator denominator : Nat) : Nat :=
  let quotient := numerator / denominator
  let remainder := numerator % denominator
  if 2 * remainder < denominator then quotient
  else if denominator < 2 * remainder then quotient + 1
  else quotient + quotient % 2

/--
The bits of the double nearest to a quotient.  The significand has 53 bits unless the number is
subnormal; the bits of a significand rounded up to `2 ^ 53` are those of the next binade, and
those past the largest double are infinite.
-/
def nearestBits
    (numerator denominator : Nat) : Nat :=
  if numerator = 0 then 0
  else
    let estimate : Int := (numerator.log2 : Int) - denominator.log2
    let scaled (exponent : Int) : Nat × Nat :=
      if 0 ≤ exponent then (numerator, denominator * twoPower exponent)
      else (numerator * twoPower (-exponent), denominator)
    let isBelow (exponent : Int) : Bool :=
      let (top, bottom) := scaled exponent
      top < bottom
    let binade := if isBelow estimate then estimate - 1 else estimate
    let exponent := max (binade - 52) (-1074)
    let (top, bottom) := scaled exponent
    let significand := roundQuotient top bottom
    let bits := significand + (exponent + 1074).toNat * binadeSize
    min bits infinityBits

/-- The double nearest to `significand * 10 ^ exponent`, with the given sign. -/
def nearest
    (negative : Bool)
    (significand : Nat)
    (exponent : Int) : Float :=
  let digits : Int := (Nat.toDigits 10 significand).length
  let bits :=
    if significand = 0 ∨ digits + exponent < -400 then 0
    else if 400 < digits + exponent then infinityBits
    else if 0 ≤ exponent then nearestBits (significand * tenPower exponent) 1
    else nearestBits significand (tenPower (-exponent))
  withSign negative bits

/-- The exact double `significand * 2 ^ exponent`, for a significand of at most 53 bits. -/
def ofBinary
    (negative : Bool)
    (significand : Nat)
    (exponent : Int) : Float :=
  withSign negative <|
    if 0 ≤ exponent then nearestBits (significand * twoPower exponent) 1
    else nearestBits significand (twoPower (-exponent))

/--
The remainder of a division that cuts the quotient toward zero; it is exact and has the sign of
the dividend.
-/
def remainder (dividend divisor : Float) : Float :=
  match magnitude dividend, magnitude divisor with
  | .finite top topExponent, .finite bottom bottomExponent =>
      if bottom = 0 then 0.0 / 0.0
      else
        let exponent := min topExponent bottomExponent
        let scale (significand : Nat) (own : Int) : Nat :=
          significand * twoPower (own - exponent)
        ofBinary (isNegative dividend)
          (scale top topExponent % scale bottom bottomExponent) exponent
  | .finite _ _, .infinite => dividend
  | _, _ => 0.0 / 0.0

/-- The integer nearest to a magnitude as a double, a tie going to the even one. -/
def roundHalfEven (value : Float) : Float :=
  match magnitude value with
  | .finite significand exponent =>
      if 0 ≤ exponent then value
      else ofBinary (isNegative value) (roundQuotient significand (twoPower (-exponent))) 0
  | _ => value

/-- Whether a double is neither infinite nor a NaN. -/
def isFinite (value : Float) : Bool :=
  match magnitude value with
  | .finite _ _ => true
  | _ => false

/-- Whether a finite double has no fractional part. -/
def isIntegral (value : Float) : Bool :=
  match magnitude value with
  | .finite significand exponent => 0 ≤ exponent || significand % twoPower (-exponent) == 0
  | _ => false

/-- The integer part of the magnitude of a double; what is not finite has none. -/
def wholePart (value : Float) : Nat :=
  match magnitude value with
  | .finite significand exponent => significand * twoPower exponent / twoPower (-exponent)
  | _ => 0

/-- A base raised to a natural power by repeated squaring, multiplying from the lowest bit on. -/
def powerFrom
    (product base : Float)
    (exponent : Nat) : Float :=
  let product := if exponent % 2 = 1 then product * base else product
  if exponent / 2 = 0 then product
  else powerFrom product (base * base) (exponent / 2)
termination_by exponent
decreasing_by omega

/-- An integer power of ten; a negative power is the reciprocal of the positive one. -/
def powerOfTen (exponent : Int) : Float :=
  let power := powerFrom 1.0 10.0 exponent.natAbs
  if exponent < 0 then 1.0 / power else power

end Decimal
end TemplatedMarkup
