import Mathlib
import TemplatedMarkup.Expression.Eval

/-!
# Integer arithmetic

An operator on integers gives the exact result when 64 bits hold it and refuses it as an overflow
otherwise.  Two operators refuse more than they have to: a remainder fails with its quotient, and a
power fails with an exponent of more than 32 bits, even of zero or one.
-/

namespace TemplatedMarkup

/-! ## Integers of 64 bits -/

theorem fitsInt64_iff {value : Int} :
    fitsInt64 value = true ↔ -2 ^ 63 ≤ value ∧ value < 2 ^ 63 := by
  have low : Int64.minValue.toInt = -2 ^ 63 := by decide
  have high : Int64.maxValue.toInt = 2 ^ 63 - 1 := by decide
  rw [fitsInt64, Bool.and_eq_true, decide_eq_true_iff, decide_eq_true_iff, low, high]
  omega

theorem fitsInt64_toInt (word : Int64) : fitsInt64 word.toInt = true :=
  fitsInt64_iff.mpr ⟨word.le_toInt, word.toInt_lt⟩

theorem toInt_ofInt_of_fitsInt64
    {value : Int}
    (fits : fitsInt64 value = true) :
    (Int64.ofInt value).toInt = value :=
  have ⟨low, high⟩ := fitsInt64_iff.mp fits
  Int64.toInt_ofInt_of_le low high

/-- An integer that fits is not changed by a wrap to 64 bits. -/
theorem bmod_of_fitsInt64
    {value : Int}
    (fits : fitsInt64 value = true) :
    value.bmod (2 ^ 64) = value :=
  (Int64.toInt_ofInt (n := value)).symm.trans (toInt_ofInt_of_fitsInt64 fits)

namespace Value

/-- An outcome is an integer exactly, or the refusal of an integer that 64 bits do not hold. -/
structure Computes
    (exact : Int)
    (outcome : Except EvalError Value) : Prop where
  /-- An integer that fits is the result. -/
  succeeds : ∀ word : Int64, word.toInt = exact → outcome = .ok (.int word)
  /-- An integer that does not fit is refused. -/
  overflows : (∀ word : Int64, word.toInt ≠ exact) → outcome = .error .integerOverflow

theorem ofExact_toInt (word : Int64) : ofExact word.toInt = .ok (.int word) := by
  rw [ofExact, if_pos (fitsInt64_toInt word), Int64.ofInt_toInt]

theorem ofExact_of_not_fits
    {exact : Int}
    (overflow : ¬fitsInt64 exact = true) :
    ofExact exact = .error .integerOverflow :=
  if_neg overflow

theorem computes_ofExact (exact : Int) : Computes exact (ofExact exact) := by
  constructor
  · rintro word rfl
    exact ofExact_toInt word
  · intro overflow
    exact ofExact_of_not_fits fun fits => overflow (.ofInt exact) (toInt_ofInt_of_fitsInt64 fits)

/-- An integer that 64 bits do not hold is refused. -/
theorem computes_of_not_fits
    {exact : Int}
    (overflow : ¬fitsInt64 exact = true) :
    Computes exact (.error .integerOverflow) :=
  ofExact_of_not_fits overflow ▸ computes_ofExact exact

/-- An integer that fits is not computed by a refusal. -/
theorem not_computes_of_fits
    {exact : Int}
    (fits : fitsInt64 exact = true) :
    ¬Computes exact (.error .integerOverflow) :=
  fun computes => nomatch computes.succeeds (.ofInt exact) (toInt_ofInt_of_fitsInt64 fits)

end Value

/-! ## Quotients that are rounded down -/

section Quotients

variable {left right : Int}

/-- The quotient that is rounded down is the greatest integer up to the quotient. -/
theorem fdiv_eq_floor (nonzero : right ≠ 0) : left.fdiv right = ⌊(left : ℚ) / right⌋ := by
  have ofNonneg (left : Int) {right : Int} (nonneg : 0 ≤ right) :
      left.fdiv right = ⌊(left : ℚ) / right⌋ := by
    rw [Int.fdiv_eq_ediv_of_nonneg left nonneg]
    lift right to Nat using nonneg
    rw [Int.cast_natCast, Rat.floor_intCast_div_natCast]
  rcases Int.lt_or_gt_of_ne nonzero with negative | positive
  · rw [← Int.neg_fdiv_neg, ofNonneg (-left) (Int.neg_nonneg_of_nonpos negative.le), Int.cast_neg,
      Int.cast_neg, neg_div_neg_eq]
  · exact ofNonneg left positive.le

/-- The remainder of a quotient that is rounded down lies between zero and the divisor. -/
theorem fmod_mem_range
    (left : Int)
    (nonzero : right ≠ 0) :
    0 ≤ left.fmod right ∧ left.fmod right < right ∨
      right < left.fmod right ∧ left.fmod right ≤ 0 := by
  rcases Int.lt_or_gt_of_ne nonzero with negative | positive
  · have opposite := Int.neg_fmod_neg left right
    have least := Int.fmod_nonneg_of_pos (-left) (Int.neg_pos_of_neg negative)
    have most := Int.fmod_lt_of_pos (-left) (Int.neg_pos_of_neg negative)
    omega
  · exact .inl ⟨Int.fmod_nonneg_of_pos left positive, Int.fmod_lt_of_pos left positive⟩

end Quotients

section Words

variable {left right : Int64}

theorem toInt_ne_zero_iff : right.toInt ≠ 0 ↔ right ≠ 0 :=
  not_congr (Int64.toInt_inj (y := 0))

/-- Only the opposite of the least integer is a quotient that does not fit. -/
theorem fitsInt64_fdiv_iff (nonzero : right ≠ 0) :
    fitsInt64 (left.toInt.fdiv right.toInt) = true ↔ ¬(left = Int64.minValue ∧ right = -1) := by
  have least : left = Int64.minValue ↔ left.toInt = -2 ^ 63 := Int64.toInt_inj.symm
  have minusOne : right = -1 ↔ right.toInt = -1 := Int64.toInt_inj.symm
  have notZero := toInt_ne_zero_iff.mpr nonzero
  have low := left.le_toInt
  have high := left.toInt_lt
  rw [fitsInt64_iff, least, minusOne]
  rcases Int.lt_or_gt_of_ne notZero with negative | positive
  · rw [← Int.neg_fdiv_neg, Int.fdiv_eq_ediv_of_nonneg _ (by omega),
      Int.le_ediv_iff_mul_le (by omega), Int.ediv_lt_iff_lt_mul (by omega)]
    omega
  · rw [Int.fdiv_eq_ediv_of_nonneg _ positive.le, Int.le_ediv_iff_mul_le positive,
      Int.ediv_lt_iff_lt_mul positive]
    omega

/-- A remainder always fits. -/
theorem fitsInt64_fmod
    (left : Int64)
    (nonzero : right ≠ 0) :
    fitsInt64 (left.toInt.fmod right.toInt) = true := by
  have range := fmod_mem_range left.toInt (toInt_ne_zero_iff.mpr nonzero)
  have low := right.le_toInt
  have high := right.toInt_lt
  rw [fitsInt64_iff]
  omega

end Words

/-! ## Powers -/

section Powers

variable
  {base : Int}
  {exponent : Nat}

/-- A base beyond one to an exponent of 64 or more does not fit. -/
theorem not_fitsInt64_pow
    (large : 1 < base.natAbs)
    (many : 64 ≤ exponent) :
    ¬fitsInt64 (base ^ exponent) = true := by
  have magnitude : 2 ^ 64 ≤ (base ^ exponent).natAbs := calc
    2 ^ 64 ≤ base.natAbs ^ 64 := Nat.pow_le_pow_left large 64
    _ ≤ base.natAbs ^ exponent := Nat.pow_le_pow_right (Nat.zero_lt_of_lt large) many
    _ = (base ^ exponent).natAbs := (Int.natAbs_pow base exponent).symm
  rw [fitsInt64_iff]
  omega

/-- All powers of zero and one, up to sign, fit. -/
theorem fitsInt64_pow (small : base.natAbs ≤ 1) : fitsInt64 (base ^ exponent) = true := by
  have magnitude : (base ^ exponent).natAbs ≤ 1 := by
    rw [Int.natAbs_pow]
    exact pow_le_one₀ (Nat.zero_le _) small
  rw [fitsInt64_iff]
  omega

/-- A power of zero or one, up to sign, depends on the parity of the exponent only. -/
theorem pow_eq_of_natAbs_le_one
    (small : base.natAbs ≤ 1)
    (positive : exponent ≠ 0) :
    base ^ exponent = if exponent % 2 = 0 then base * base else base := by
  obtain rfl | rfl | rfl : base = -1 ∨ base = 0 ∨ base = 1 := by omega
  · split
    · rename_i even
      rw [(Nat.even_iff.mpr even).neg_one_pow]
      rfl
    · rename_i odd
      rw [(Nat.odd_iff.mpr (by omega)).neg_one_pow]
  · simp [zero_pow positive]
  · simp

/-- A power is exact unless it is too large or its exponent has more than 32 bits. -/
theorem integerPower?_eq
    (base : Int)
    (exponent : Nat) :
    integerPower? base exponent =
      if 1 < base.natAbs ∧ 64 ≤ exponent ∨ exponentBound ≤ exponent then none
      else some (base ^ exponent) := by
  unfold integerPower?
  by_cases tooMany : exponentBound ≤ exponent
  · rw [if_pos tooMany, if_pos (.inr tooMany)]
  · by_cases large : 1 < base.natAbs
    · simp only [tooMany, large, true_and, or_false]
      rfl
    · have small : base.natAbs ≤ 1 := Nat.not_lt.mp large
      simp only [tooMany, large, false_and, or_false, if_false]
      by_cases zero : exponent = 0
      · rw [if_pos zero, zero, pow_zero]
      · rw [if_neg zero, pow_eq_of_natAbs_le_one small zero]
        split <;> rfl

end Powers

/-! ## Operators -/

namespace Expression
namespace BinaryOperator

/-- The exact result of an operator on integers, if it has one. -/
def exactResult? (operator : BinaryOperator) (left right : Int) : Option Int :=
  match operator with
  | .add => some (left + right)
  | .subtract => some (left - right)
  | .multiply => some (left * right)
  | .floorDivide => if right = 0 then none else some ⌊(left : ℚ) / right⌋
  | .modulo => if right = 0 then none else some (left - right * ⌊(left : ℚ) / right⌋)
  | .power => if right < 0 then none else some (left ^ right.toNat)
  | .divide | .and | .or => none

/--
Operands that an operator refuses although the result fits: those of a remainder whose quotient
does not fit, and a power of zero or one, up to sign, with an exponent of more than 32 bits.
-/
def Refuses (operator : BinaryOperator) (left right : Int64) : Prop :=
  match operator with
  | .modulo => left = Int64.minValue ∧ right = -1
  | .power => exponentBound ≤ right.toInt ∧ left.toInt.natAbs ≤ 1
  | _ => False

end BinaryOperator

/-- An operator with the integers that it is applied to. -/
inductive Operation where
  /-- The opposite of an integer. -/
  | negation (operand : Int64)
  /-- An operator between two integers. -/
  | between (operator : BinaryOperator) (left right : Int64)

namespace Operation

/-- The exact result of an operation, if it has one. -/
def exactResult? : Operation → Option Int
  | negation operand => some (-operand.toInt)
  | between operator left right => operator.exactResult? left.toInt right.toInt

/-- What evaluation makes of an operation. -/
def outcome : Operation → Except EvalError Value
  | negation operand => UnaryOperator.negate.apply (.int operand)
  | between operator left right => operator.apply (.int left) (.int right)

/-- An operation is refused although its result fits. -/
def Refuses : Operation → Prop
  | negation _ => False
  | between operator left right => operator.Refuses left right

end Operation
end Expression

namespace Value

variable {left right : Int64}

/-- A quotient that is rounded down is exact. -/
theorem floorDivide_eq (nonzero : right ≠ 0) :
    (int left).floorDivide (int right) = ofExact (left.toInt.fdiv right.toInt) := by
  simp only [floorDivide, number?, if_neg (toInt_ne_zero_iff.mpr nonzero)]

theorem computes_floorDivide (nonzero : right ≠ 0) :
    Computes (left.toInt.fdiv right.toInt) ((int left).floorDivide (int right)) := by
  rw [floorDivide_eq nonzero]
  exact computes_ofExact _

/-- A remainder is exact unless its quotient does not fit. -/
theorem modulo_eq (nonzero : right ≠ 0) :
    (int left).modulo (int right) =
      if left = Int64.minValue ∧ right = -1 then .error .integerOverflow
      else ofExact (left.toInt.fmod right.toInt) := by
  simp only [modulo, number?, if_neg (toInt_ne_zero_iff.mpr nonzero), fitsInt64_fdiv_iff nonzero,
    ite_not]

theorem computes_modulo_iff (nonzero : right ≠ 0) :
    Computes (left.toInt.fmod right.toInt) ((int left).modulo (int right)) ↔
      ¬(left = Int64.minValue ∧ right = -1) := by
  rw [modulo_eq nonzero]
  split
  · rename_i refused
    exact iff_of_false (not_computes_of_fits (fitsInt64_fmod left nonzero)) (not_not_intro refused)
  · rename_i taken
    exact iff_of_true (computes_ofExact _) taken

/-- A power with an exponent that is not negative is exact or refused. -/
theorem power_eq (nonnegative : 0 ≤ right.toInt) :
    (int left).power (int right) =
      if 1 < left.toInt.natAbs ∧ 64 ≤ right.toInt.toNat ∨ exponentBound ≤ right.toInt.toNat then
        .error .integerOverflow
      else ofExact (left.toInt ^ right.toInt.toNat) := by
  simp only [power, number?, if_neg (Int.not_lt.mpr nonnegative), integerPower?_eq]
  by_cases refused : 1 < left.toInt.natAbs ∧ 64 ≤ right.toInt.toNat ∨
      exponentBound ≤ right.toInt.toNat
  · simp only [if_pos refused]
  · simp only [if_neg refused]

theorem computes_power_iff (nonnegative : 0 ≤ right.toInt) :
    Computes (left.toInt ^ right.toInt.toNat) ((int left).power (int right)) ↔
      ¬(exponentBound ≤ right.toInt ∧ left.toInt.natAbs ≤ 1) := by
  have bound : 64 ≤ exponentBound := by decide
  rw [power_eq nonnegative]
  split
  · by_cases small : left.toInt.natAbs ≤ 1
    · refine iff_of_false (not_computes_of_fits (fitsInt64_pow small)) ?_
      omega
    · refine iff_of_true (computes_of_not_fits (not_fitsInt64_pow (by omega) (by omega))) ?_
      omega
  · refine iff_of_true (computes_ofExact _) ?_
    omega

end Value

namespace Expression

open Value

/--
An operation on integers gives the exact result if 64 bits hold it and fails otherwise, except on
the operands that a remainder or a power refuses although the result fits.
-/
theorem computes_iff_not_refuses
    {operation : Operation}
    {exact : Int}
    (isExact : operation.exactResult? = some exact) :
    (Computes exact operation.outcome ↔ ¬operation.Refuses) ∧
      (operation.Refuses → operation.outcome = .error .integerOverflow) := by
  cases operation with
  | negation operand =>
      obtain rfl := Option.some.inj isExact
      exact ⟨iff_of_true (computes_ofExact _) not_false, False.elim⟩
  | between operator left right =>
      rw [Operation.exactResult?] at isExact
      cases operator with
      | add | subtract | multiply =>
          obtain rfl := Option.some.inj isExact
          exact ⟨iff_of_true (computes_ofExact _) not_false, False.elim⟩
      | floorDivide =>
          obtain ⟨notZero, same⟩ := Option.ite_none_left_eq_some.mp isExact
          obtain rfl := Option.some.inj same
          have nonzero : right ≠ 0 := toInt_ne_zero_iff.mp notZero
          rw [← fdiv_eq_floor notZero]
          exact ⟨iff_of_true (computes_floorDivide nonzero) not_false, False.elim⟩
      | modulo =>
          obtain ⟨notZero, same⟩ := Option.ite_none_left_eq_some.mp isExact
          obtain rfl := Option.some.inj same
          have nonzero : right ≠ 0 := toInt_ne_zero_iff.mp notZero
          rw [← fdiv_eq_floor notZero, ← Int.fmod_def]
          refine ⟨computes_modulo_iff nonzero, fun refused => ?_⟩
          exact (modulo_eq nonzero).trans (if_pos refused)
      | power =>
          obtain ⟨notNegative, same⟩ := Option.ite_none_left_eq_some.mp isExact
          obtain rfl := Option.some.inj same
          have nonnegative : 0 ≤ right.toInt := Int.not_lt.mp notNegative
          refine ⟨computes_power_iff nonnegative, fun ⟨tooMany, small⟩ => ?_⟩
          exact (power_eq nonnegative).trans (if_pos (.inr (by omega)))
      | divide | and | or => contradiction

/-- The greatest power of two that fits has the least integer as its opposite. -/
theorem computes_iff_not_refuses_least :
    (Operation.between .power (-2) 63).exactResult? = some (-2 ^ 63) ∧
      Computes (-2 ^ 63) (Operation.between .power (-2) 63).outcome := by
  have isExact : (Operation.between .power (-2) 63).exactResult? = some (-2 ^ 63) := by decide
  refine ⟨isExact, (computes_iff_not_refuses isExact).1.mpr ?_⟩
  exact fun refused => absurd refused.1 (by decide)

/-- The least integer has remainder zero by minus one, and every power of one is one. -/
theorem not_computes_of_refused :
    ((Operation.between .modulo Int64.minValue (-1)).exactResult? = some 0 ∧
      ¬Computes 0 (Operation.between .modulo Int64.minValue (-1)).outcome) ∧
    ((Operation.between .power 1 4294967296).exactResult? = some 1 ∧
      ¬Computes 1 (Operation.between .power 1 4294967296).outcome) := by
  refine ⟨⟨?_, ?_⟩, ?_, ?_⟩
  · decide +kernel
  · exact not_computes_of_fits rfl
  · rw [Operation.exactResult?, BinaryOperator.exactResult?, if_neg (by decide),
      show Int64.toInt 1 = 1 from rfl, one_pow]
  · exact not_computes_of_fits rfl

end Expression

end TemplatedMarkup
