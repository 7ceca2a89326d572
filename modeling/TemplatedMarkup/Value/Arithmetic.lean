import TemplatedMarkup.Value.Limit

/-!
# Arithmetic

Integers are computed exactly and refused when the result does not fit in 64 bits; an operation
with a double works on doubles.  Strings and lists can be added and repeated.
-/

namespace TemplatedMarkup

/-- Whether an integer fits in 64 bits. -/
def fitsInt64 (value : Int) : Bool :=
  Int64.minValue.toInt ≤ value && value ≤ Int64.maxValue.toInt

/-- The sum of two words, or nothing when 64 bits do not hold it. -/
def sumWithin? (left right : Int64) : Option Int64 :=
  if fitsInt64 (left.toInt + right.toInt) then some (.ofInt (left.toInt + right.toInt)) else none

/-- A sum that 64 bits hold is exact. -/
theorem toInt_of_sumWithin?
    {left right sum : Int64}
    (isSum : sumWithin? left right = some sum) :
    sum.toInt = left.toInt + right.toInt := by
  unfold sumWithin? at isSum
  split at isSum
  · rename_i fits
    rw [fitsInt64, Bool.and_eq_true, decide_eq_true_iff, decide_eq_true_iff] at fits
    obtain rfl := Option.some.inj isSum
    exact Int64.toInt_ofInt_of_le fits.1 (Int.lt_add_one_of_le fits.2)
  · contradiction

/-- The exponents from this one on are refused: they cannot be written in 32 bits. -/
def exponentBound : Nat := 4294967296

/--
A power of an integer, or nothing when it certainly does not fit in 64 bits: a base beyond one to
an exponent of 64 or more is too large.
-/
def integerPower? (base : Int) (exponent : Nat) : Option Int :=
  if exponentBound ≤ exponent then none
  else if 1 < base.natAbs then
    if 64 ≤ exponent then none else some (base.pow exponent)
  else if exponent = 0 then some 1
  else if exponent % 2 = 0 then some (base * base)
  else some base

namespace Value

/-- The integer value of an exact result. -/
def ofExact (value : Int) : Except EvalError Value :=
  if fitsInt64 value then .ok (.int (.ofInt value)) else .error .integerOverflow

/-- The error of an operator on operands that it does not take. -/
def unsupported (operator : String) (left right : Value) : Except EvalError Value :=
  .error (.unsupportedOperands operator left.kind right.kind)

/-- The list of the items of two lists. -/
def concatenate (left right : List Value) : Except EvalError Value := do
  checkLength (left.length + right.length)
  checkFootprint (saturate ((list left).footprint + (list right).footprint))
  return .list (left ++ right)

/-- The sum of two numbers, or two strings or lists joined. -/
def add (left right : Value) : Except EvalError Value :=
  match left.number?, right.number? with
  | some (.int left), some (.int right) => ofExact (left.toInt + right.toInt)
  | some left, some right => .ok (.float (left.toFloat + right.toFloat))
  | _, _ =>
      match left, right with
      | .str left, .str right => do
          checkStringSize (left.utf8ByteSize + right.utf8ByteSize)
          return .str (left ++ right)
      | .list left, .list right => concatenate left right
      | left, right => unsupported "+" left right

/-- The difference of two numbers. -/
def subtract (left right : Value) : Except EvalError Value :=
  match left.number?, right.number? with
  | some (.int left), some (.int right) => ofExact (left.toInt - right.toInt)
  | some left, some right => .ok (.float (left.toFloat - right.toFloat))
  | _, _ => unsupported "-" left right

/-- A list written a number of times; nothing is ever written for the empty list. -/
def copies {Item : Type} (items : List Item) (count : Nat) : List Item :=
  if items.isEmpty then [] else (List.replicate count items).flatten

/-- A string repeated; a negative count repeats it not at all. -/
def repeatString (text : String) (count : Int) : Except EvalError Value := do
  checkStringSize (saturate (text.utf8ByteSize * count.toNat))
  return .ofText (copies text.toList count.toNat)

/-- A list repeated; a negative count repeats it not at all. -/
def repeatList (items : List Value) (count : Int) : Except EvalError Value := do
  checkLength (saturate (items.length * count.toNat))
  let each := saturate ((items.map footprint).foldl (· + ·) 0)
  checkFootprint (saturate (each * count.toNat))
  return .list (copies items count.toNat)

/-- The product of two numbers. -/
def multiplyNumbers (left right : Value) : Except EvalError Value :=
  match left.number?, right.number? with
  | some (.int left), some (.int right) => ofExact (left.toInt * right.toInt)
  | some left, some right => .ok (.float (left.toFloat * right.toFloat))
  | _, _ => unsupported "*" left right

/-- The product of two numbers, or a string or list repeated. -/
def multiply (left right : Value) : Except EvalError Value :=
  match left, right, left.integer?, right.integer? with
  | .str text, _, _, some count => repeatString text count.toInt
  | _, .str text, some count, _ => repeatString text count.toInt
  | .list items, _, _, some count => repeatList items count.toInt
  | _, .list items, some count, _ => repeatList items count.toInt
  | left, right, _, _ => multiplyNumbers left right

/-- The quotient of two numbers, as a double. -/
def divide (left right : Value) : Except EvalError Value :=
  match left.number?, right.number? with
  | some left, some right =>
      if right.toFloat == 0.0 then .error .divisionByZero
      else .ok (.float (left.toFloat / right.toFloat))
  | _, _ => unsupported "/" left right

/-- The quotient of two numbers, rounded down. -/
def floorDivide (left right : Value) : Except EvalError Value :=
  match left.number?, right.number? with
  | some (.int left), some (.int right) =>
      if right.toInt = 0 then .error .integerDivisionByZero
      else ofExact (left.toInt.fdiv right.toInt)
  | some left, some right =>
      if right.toFloat == 0.0 then .error .floatFloorByZero
      else .ok (.float (left.toFloat / right.toFloat).floor)
  | _, _ => unsupported "//" left right

/-- The remainder of two doubles, with the sign of the divisor. -/
def floorModulo (left right : Float) : Float :=
  let remainder := Decimal.remainder left right
  if remainder != 0.0 && (remainder < 0.0) != (right < 0.0) then remainder + right
  else remainder

/--
The remainder of the quotient that is rounded down, with the sign of the divisor.  Integers have a
remainder when their quotient fits.
-/
def modulo (left right : Value) : Except EvalError Value :=
  match left.number?, right.number? with
  | some (.int left), some (.int right) =>
      if right.toInt = 0 then .error .integerDivisionByZero
      else if fitsInt64 (left.toInt.fdiv right.toInt) then
        ofExact (left.toInt.fmod right.toInt)
      else .error .integerOverflow
  | some left, some right =>
      if right.toFloat == 0.0 then .error .floatModuloByZero
      else .ok (.float (floorModulo left.toFloat right.toFloat))
  | _, _ => unsupported "%" left right

/-- A power of doubles. -/
def floatPower (base exponent : Float) : Except EvalError Value :=
  if base == 0.0 && exponent < 0.0 then .error .zeroToNegativePower
  else .ok (.float (base.pow exponent))

/-- A power of two numbers; of two integers it is exact when the exponent is not negative. -/
def power (left right : Value) : Except EvalError Value :=
  match left.number?, right.number? with
  | some (.int base), some (.int exponent) =>
      if exponent.toInt < 0 then floatPower base.toFloat exponent.toFloat
      else
        match integerPower? base.toInt exponent.toInt.toNat with
        | some value => ofExact value
        | Option.none => .error .integerOverflow
  | some base, some exponent => floatPower base.toFloat exponent.toFloat
  | _, _ => unsupported "**" left right

/-- A number with the opposite sign. -/
def negate (value : Value) : Except EvalError Value :=
  match value.number? with
  | some (.int number) => ofExact (-number.toInt)
  | some (.float number) => .ok (.float (-number))
  | Option.none => .error (.unsupportedSign "-" value.kind)

/-- A number as it is; a truth value becomes an integer. -/
def plus (value : Value) : Except EvalError Value :=
  match value.number? with
  | some (.int number) => .ok (.int number)
  | some (.float number) => .ok (.float number)
  | Option.none => .error (.unsupportedSign "+" value.kind)

end Value
end TemplatedMarkup
