import TemplatedMarkup.Proofs.Value.Integer

/-!
# Quotients and remainders in words

A quotient that is rounded down and its remainder are computed from the quotient and the remainder
that are cut off toward zero, each corrected on its own.  They fail together, they fit each other,
and no step of the computation in words of 64 bits wraps around.
-/

namespace TemplatedMarkup
namespace Value

variable {left right : Int64}

/-- A quotient that is cut off toward zero exceeds the one that is rounded down. -/
def IsCutUpward (left right : Int64) : Prop :=
  left % right ≠ 0 ∧ ¬(left < 0 ↔ right < 0)

/-- A remainder that is cut off toward zero differs in sign from the divisor. -/
def HasOtherSign (left right : Int64) : Prop :=
  left % right ≠ 0 ∧ ¬(left % right < 0 ↔ right < 0)

instance : Decidable (IsCutUpward left right) := inferInstanceAs (Decidable (_ ∧ _))

instance : Decidable (HasOtherSign left right) := inferInstanceAs (Decidable (_ ∧ _))

/-- A quotient in words that is rounded down: the one that is cut off, corrected. -/
def wordQuotient (left right : Int64) : Int64 :=
  if IsCutUpward left right then left / right - 1 else left / right

/-- A remainder in words with the sign of the divisor: the one that is cut off, corrected. -/
def wordRemainder (left right : Int64) : Int64 :=
  if HasOtherSign left right then left % right + right else left % right

/-- No step of a quotient and a remainder in words wraps around. -/
structure DividesWithoutWrap (left right : Int64) : Prop where
  /-- The quotient that is cut off. -/
  quotient : (left / right).toInt = left.toInt.tdiv right.toInt
  /-- The remainder that is cut off. -/
  remainder : (left % right).toInt = left.toInt.tmod right.toInt
  /-- The correction of the quotient. -/
  lessOne : IsCutUpward left right → (left / right - 1).toInt = (left / right).toInt - 1
  /-- The correction of the remainder. -/
  moreDivisor : HasOtherSign left right →
    (left % right + right).toInt = (left % right).toInt + right.toInt

theorem lt_zero_iff_toInt (word : Int64) : word < 0 ↔ word.toInt < 0 :=
  Int64.lt_iff_toInt_lt

theorem mod_ne_zero_iff : left % right ≠ 0 ↔ left.toInt.tmod right.toInt ≠ 0 := by
  rw [← Int64.toInt_mod, toInt_ne_zero_iff]

theorem isCutUpward_iff :
    IsCutUpward left right ↔
      left.toInt.tmod right.toInt ≠ 0 ∧ ¬(left.toInt < 0 ↔ right.toInt < 0) := by
  rw [IsCutUpward, mod_ne_zero_iff, lt_zero_iff_toInt, lt_zero_iff_toInt]

/-- A remainder that is cut off has the sign of the dividend, so both are corrected together. -/
theorem hasOtherSign_iff : HasOtherSign left right ↔ IsCutUpward left right := by
  have sign := Int.sign_tmod left.toInt right.toInt
  rw [HasOtherSign, IsCutUpward, and_congr_right_iff]
  intro notZero
  have notZero := mod_ne_zero_iff.mp notZero
  rw [if_neg fun divides => notZero (Int.dvd_iff_tmod_eq_zero.mp divides)] at sign
  rw [lt_zero_iff_toInt, lt_zero_iff_toInt left, Int64.toInt_mod,
    ← Int.sign_eq_neg_one_iff_neg, sign, Int.sign_eq_neg_one_iff_neg]

/-- The quotient that is rounded down and its remainder are those that are cut off, corrected. -/
theorem fdiv_eq_and_fmod_eq
    (left : Int64)
    (nonzero : right ≠ 0) :
    left.toInt.fdiv right.toInt = left.toInt.tdiv right.toInt -
        (if IsCutUpward left right then 1 else 0) ∧
      left.toInt.fmod right.toInt = left.toInt.tmod right.toInt +
        (if IsCutUpward left right then right.toInt else 0) := by
  simp only [isCutUpward_iff]
  rw [Int.fdiv_eq_tdiv, Int.fmod_eq_tmod]
  simp only [Int.dvd_iff_tmod_eq_zero]
  have notZero := toInt_ne_zero_iff.mpr nonzero
  rcases Int.lt_or_gt_of_ne notZero with negative | positive
  · rw [Int.sign_eq_neg_one_of_neg negative]
    split_ifs <;> omega
  · rw [Int.sign_eq_one_of_pos positive]
    split_ifs <;> omega

/-- A quotient that is cut off upward is not positive. -/
theorem tdiv_nonpos_of_isCutUpward
    (cut : IsCutUpward left right) :
    left.toInt.tdiv right.toInt ≤ 0 := by
  obtain ⟨-, differ⟩ := isCutUpward_iff.mp cut
  rcases lt_or_ge left.toInt 0 with negative | nonnegative
  · have opposite : 0 ≤ (-left.toInt).tdiv right.toInt :=
      Int.tdiv_nonneg (by omega) (by omega)
    rw [Int.neg_tdiv] at opposite
    omega
  · exact Int.tdiv_nonpos_of_nonneg_of_nonpos nonnegative (by omega)

/-- Words divide without a wrap unless the quotient does not fit. -/
theorem dividesWithoutWrap
    (nonzero : right ≠ 0)
    (taken : ¬(left = Int64.minValue ∧ right = -1)) :
    DividesWithoutWrap left right := by
  have quotientFits := fitsInt64_iff.mp ((fitsInt64_fdiv_iff nonzero).mpr taken)
  have remainderFits := fitsInt64_fmod left nonzero
  obtain ⟨quotient, remainder⟩ := fdiv_eq_and_fmod_eq left nonzero
  have cutFits : fitsInt64 (left.toInt.tdiv right.toInt) = true := by
    rw [fitsInt64_iff]
    split at quotient
    · rename_i cut
      have nonpositive := tdiv_nonpos_of_isCutUpward cut
      omega
    · omega
  have cutQuotient : (left / right).toInt = left.toInt.tdiv right.toInt := by
    rw [Int64.toInt_div, bmod_of_fitsInt64 cutFits]
  refine ⟨cutQuotient, Int64.toInt_mod left right, fun cut => ?_, fun differs => ?_⟩
  · rw [if_pos cut] at quotient
    rw [Int64.toInt_sub, cutQuotient, bmod_of_fitsInt64]
    · rfl
    · rw [fitsInt64_iff]
      exact quotient ▸ quotientFits
  · rw [if_pos (hasOtherSign_iff.mp differs)] at remainder
    rw [Int64.toInt_add, Int64.toInt_mod, bmod_of_fitsInt64]
    exact remainder ▸ remainderFits

/-- The quotient in words is the one that is rounded down. -/
theorem DividesWithoutWrap.toInt_wordQuotient
    (divides : DividesWithoutWrap left right)
    (nonzero : right ≠ 0) :
    (wordQuotient left right).toInt = left.toInt.fdiv right.toInt := by
  rw [(fdiv_eq_and_fmod_eq left nonzero).1, wordQuotient]
  split
  · rename_i cut
    rw [divides.lessOne cut, divides.quotient]
  · rw [divides.quotient, Int.sub_zero]

/-- The remainder in words is that of the quotient that is rounded down. -/
theorem DividesWithoutWrap.toInt_wordRemainder
    (divides : DividesWithoutWrap left right)
    (nonzero : right ≠ 0) :
    (wordRemainder left right).toInt = left.toInt.fmod right.toInt := by
  rw [(fdiv_eq_and_fmod_eq left nonzero).2, wordRemainder]
  simp only [hasOtherSign_iff]
  split
  · rename_i cut
    rw [divides.moreDivisor (hasOtherSign_iff.mpr cut), divides.remainder]
  · rw [divides.remainder, Int.add_zero]

/-- A remainder is smaller than the divisor, and it is zero or has the sign of the divisor. -/
theorem abs_fmod_lt_and_sign
    {dividend divisor : Int}
    (nonzero : divisor ≠ 0) :
    |dividend.fmod divisor| < |divisor| ∧
      (dividend.fmod divisor = 0 ∨ (dividend.fmod divisor).sign = divisor.sign) := by
  rcases fmod_mem_range dividend nonzero with ⟨least, most⟩ | ⟨least, most⟩
  · have positive : 0 < divisor := least.trans_lt most
    refine ⟨by rwa [abs_of_nonneg least, abs_of_pos positive], ?_⟩
    refine least.eq_or_lt.imp Eq.symm fun above => ?_
    rw [Int.sign_eq_one_of_pos above, Int.sign_eq_one_of_pos positive]
  · have negative : divisor < 0 := least.trans_le most
    refine ⟨by rwa [abs_of_nonpos most, abs_of_neg negative, neg_lt_neg_iff], ?_⟩
    refine most.eq_or_lt.imp_right fun below => ?_
    rw [Int.sign_eq_neg_one_of_neg below, Int.sign_eq_neg_one_of_neg negative]

/-- A quotient that does not fit is refused, and its remainder with it. -/
theorem division_refused (nonzero : right ≠ 0) (refused : left = Int64.minValue ∧ right = -1) :
    (int left).floorDivide (int right) = .error .integerOverflow ∧
      (int left).modulo (int right) = .error .integerOverflow := by
  constructor
  · rw [floorDivide_eq nonzero, ofExact_of_not_fits]
    exact fun fits => (fitsInt64_fdiv_iff nonzero).mp fits refused
  · rw [modulo_eq nonzero, if_pos refused]

/-- Otherwise the quotient and the remainder are those in words. -/
theorem division_in_words
    (nonzero : right ≠ 0)
    (taken : ¬(left = Int64.minValue ∧ right = -1)) :
    (int left).floorDivide (int right) = .ok (int (wordQuotient left right)) ∧
      (int left).modulo (int right) = .ok (int (wordRemainder left right)) :=
  have divides := dividesWithoutWrap nonzero taken
  ⟨(computes_floorDivide nonzero).succeeds _ (divides.toInt_wordQuotient nonzero),
    ((computes_modulo_iff nonzero).mpr taken).succeeds _ (divides.toInt_wordRemainder nonzero)⟩

/--
A quotient that is rounded down and a remainder fail on the same operands: those whose quotient
does not fit.  Otherwise quotient times divisor plus remainder is the dividend, the remainder is
smaller than the divisor and has its sign, and both are what words give without wrapping around.
-/
theorem floorDivide_modulo (nonzero : right ≠ 0) :
    ((∃ quotient, (int left).floorDivide (int right) = .ok quotient) ↔
      ∃ remainder, (int left).modulo (int right) = .ok remainder) ∧
    ((∃ remainder, (int left).modulo (int right) = .ok remainder) ↔
      ¬(left = Int64.minValue ∧ right = -1)) ∧
    ∀ quotient remainder, (int left).floorDivide (int right) = .ok quotient →
      (int left).modulo (int right) = .ok remainder →
        quotient = .int (wordQuotient left right) ∧ remainder = .int (wordRemainder left right) ∧
        DividesWithoutWrap left right ∧
        (wordQuotient left right).toInt * right.toInt + (wordRemainder left right).toInt =
          left.toInt ∧
        |(wordRemainder left right).toInt| < |right.toInt| ∧
        ((wordRemainder left right).toInt = 0 ∨
          (wordRemainder left right).toInt.sign = right.toInt.sign) := by
  by_cases refused : left = Int64.minValue ∧ right = -1
  · obtain ⟨noQuotient, noRemainder⟩ := division_refused nonzero refused
    rw [noQuotient, noRemainder]
    exact ⟨iff_of_false nofun nofun, iff_of_false nofun (not_not_intro refused), nofun⟩
  · have divides := dividesWithoutWrap nonzero refused
    obtain ⟨isQuotient, isRemainder⟩ := division_in_words nonzero refused
    refine ⟨iff_of_true ⟨_, isQuotient⟩ ⟨_, isRemainder⟩, iff_of_true ⟨_, isRemainder⟩ refused, ?_⟩
    intro quotient remainder givesQuotient givesRemainder
    obtain rfl := Except.ok.inj (isQuotient.symm.trans givesQuotient)
    obtain rfl := Except.ok.inj (isRemainder.symm.trans givesRemainder)
    refine ⟨rfl, rfl, divides, ?_⟩
    rw [divides.toInt_wordQuotient nonzero, divides.toInt_wordRemainder nonzero]
    exact ⟨Int.fdiv_mul_add_fmod _ _, abs_fmod_lt_and_sign (toInt_ne_zero_iff.mpr nonzero)⟩

/-- Minus seven by two is minus four, and one is left. -/
theorem floorDivide_modulo_negative :
    (2 : Int64) ≠ 0 ∧ (int (-7)).floorDivide (int 2) = .ok (.int (-4)) ∧
      (int (-7)).modulo (int 2) = .ok (.int 1) ∧ (-4) * 2 + 1 = (-7 : Int) := by
  have nonzero : (2 : Int64) ≠ 0 := by decide
  have isQuotient : (int (-7)).floorDivide (int 2) = .ok (.int (-4)) := rfl
  have isRemainder : (int (-7)).modulo (int 2) = .ok (.int 1) := rfl
  obtain ⟨sameQuotient, sameRemainder, -, whole, -⟩ :=
    (floorDivide_modulo nonzero).2.2 _ _ isQuotient isRemainder
  refine ⟨nonzero, isQuotient, isRemainder, ?_⟩
  rwa [← Value.int.inj sameQuotient, ← Value.int.inj sameRemainder] at whole

end Value
end TemplatedMarkup
