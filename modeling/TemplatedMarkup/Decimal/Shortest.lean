import TemplatedMarkup.Decimal.Binary

/-!
# Shortest decimals

The fewest digits that read back as a given double.  A double stands for an interval of reals, the
ones that round to it; of the decimals in that interval, one with the fewest digits is chosen, and
of those the nearest.
-/

namespace TemplatedMarkup
namespace Decimal

/-- The decimal `digits * 10 ^ exponent`. -/
structure Scientific where
  /-- The digits, read as one natural number. -/
  digits : Nat
  /-- The power of ten that the last digit counts. -/
  exponent : Int
deriving DecidableEq, Repr

/--
The reals that round to a double, scaled by a common denominator: `low ≤ value ≤ high`, with the
ends themselves included when `closed` holds.
-/
structure RoundingInterval where
  /-- The lower end, as a numerator. -/
  low : Nat
  /-- The double itself, as a numerator. -/
  value : Nat
  /-- The upper end, as a numerator. -/
  high : Nat
  /-- The common denominator. -/
  denominator : Nat
  /-- Whether the ends round to the double too. -/
  closed : Bool

/--
The interval of a positive double.  The gap below a power of two is half as wide, unless the
double is the least normal one or subnormal.
-/
def RoundingInterval.ofBinary
    (significand : Nat)
    (exponent : Int) : RoundingInterval :=
  let narrow := significand = binadeSize ∧ -1074 < exponent
  let scale := twoPower (exponent - 2)
  { low := (4 * significand - if narrow then 1 else 2) * scale
    value := 4 * significand * scale
    high := (4 * significand + 2) * scale
    denominator := twoPower (2 - exponent)
    closed := significand % 2 = 0 }

/-- Whether `digits * 10 ^ exponent` lies in the interval. -/
def RoundingInterval.contains
    (interval : RoundingInterval)
    (decimal : Scientific) : Bool :=
  let point := decimal.digits * tenPower decimal.exponent * interval.denominator
  let scale := tenPower (-decimal.exponent)
  let low := interval.low * scale
  let high := interval.high * scale
  (low < point && point < high) || (interval.closed && (point == low || point == high))

/-- The two neighbours of the interval's own double on the grid of a power of ten. -/
def RoundingInterval.neighbours
    (interval : RoundingInterval)
    (exponent : Int) : Scientific × Scientific :=
  let below :=
    interval.value * tenPower (-exponent) / (interval.denominator * tenPower exponent)
  (⟨below, exponent⟩, ⟨below + 1, exponent⟩)

/-- Whether the upper of two neighbours is at least as near to the double as the lower one. -/
def RoundingInterval.prefersUpper
    (interval : RoundingInterval)
    (below : Scientific) : Bool :=
  let unit := interval.denominator * tenPower below.exponent
  let value := interval.value * tenPower (-below.exponent)
  unit ≤ 2 * (value - below.digits * unit)

/-- The nearer neighbour on a grid among those that lie in the interval. -/
def RoundingInterval.onGrid?
    (interval : RoundingInterval)
    (exponent : Int) : Option Scientific :=
  let (below, above) := interval.neighbours exponent
  match interval.contains below, interval.contains above with
  | true, true => some (if interval.prefersUpper below then above else below)
  | true, false => some below
  | false, true => some above
  | false, false => none

/-- The power of ten just above the double: the number of its digits before the point. -/
def RoundingInterval.scale (interval : RoundingInterval) : Int :=
  let whole := interval.value / interval.denominator
  if 0 < whole then (Nat.toDigits 10 whole).length
  else
    let reciprocal := (interval.denominator - 1) / interval.value
    1 - (Nat.toDigits 10 reciprocal).length

/-- Try grids of one digit more at a time, and the exact value after the seventeenth. -/
def RoundingInterval.search
    (interval : RoundingInterval)
    (digits : Nat) : Nat → Scientific
  | 0 => (interval.neighbours (interval.scale - 17)).1
  | remaining + 1 =>
      match interval.onGrid? (interval.scale - digits) with
      | some decimal => decimal
      | none => interval.search (digits + 1) remaining

/-- The fewest digits that read back as the positive double `significand * 2 ^ exponent`. -/
def shortest
    (significand : Nat)
    (exponent : Int) : Scientific :=
  if significand = 0 then ⟨0, 0⟩
  else (RoundingInterval.ofBinary significand exponent).search 1 17

end Decimal
end TemplatedMarkup
