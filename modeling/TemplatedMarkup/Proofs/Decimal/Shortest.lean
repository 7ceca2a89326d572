import TemplatedMarkup.Proofs.Decimal.Rounding

/-!
# The shortest decimal of a double

The search for the fewest digits ends in the rounding interval of the double: seventeen digits
always suffice, since their grid is finer than the interval of any double.
-/

namespace TemplatedMarkup
namespace Decimal

/-- The rational number that a decimal is. -/
def Scientific.toRat (decimal : Scientific) : ℚ :=
  decimal.digits * 10 ^ decimal.exponent

namespace RoundingInterval

/-! ## Comparing with a decimal -/

section Compare

variable
  {interval : RoundingInterval}
  (divides : 0 < interval.denominator)
  (bound : Nat)
  (decimal : Scientific)

include divides

theorem lt_point_iff :
    bound * tenPower (-decimal.exponent) <
        decimal.digits * tenPower decimal.exponent * interval.denominator ↔
      (bound : ℚ) / interval.denominator < decimal.toRat := by
  have denominator : (0 : ℚ) < interval.denominator := by exact_mod_cast divides
  have scale : (0 : ℚ) < tenPower (-decimal.exponent) := by
    exact_mod_cast tenPower_pos (-decimal.exponent)
  rw [Scientific.toRat, ← tenPower_div_tenPower, ← mul_div_assoc,
    div_lt_div_iff₀ denominator scale]
  norm_cast

theorem point_lt_iff :
    decimal.digits * tenPower decimal.exponent * interval.denominator <
        bound * tenPower (-decimal.exponent) ↔
      decimal.toRat < (bound : ℚ) / interval.denominator := by
  have denominator : (0 : ℚ) < interval.denominator := by exact_mod_cast divides
  have scale : (0 : ℚ) < tenPower (-decimal.exponent) := by
    exact_mod_cast tenPower_pos (-decimal.exponent)
  rw [Scientific.toRat, ← tenPower_div_tenPower, ← mul_div_assoc,
    div_lt_div_iff₀ scale denominator]
  norm_cast

theorem point_eq_iff :
    decimal.digits * tenPower decimal.exponent * interval.denominator =
        bound * tenPower (-decimal.exponent) ↔
      decimal.toRat = (bound : ℚ) / interval.denominator := by
  have denominator : (interval.denominator : ℚ) ≠ 0 := by exact_mod_cast divides.ne'
  have scale : (tenPower (-decimal.exponent) : ℚ) ≠ 0 := by
    exact_mod_cast (tenPower_pos (-decimal.exponent)).ne'
  rw [Scientific.toRat, ← tenPower_div_tenPower, ← mul_div_assoc,
    div_eq_div_iff scale denominator]
  norm_cast

end Compare

theorem contains_iff
    {interval : RoundingInterval}
    (divides : 0 < interval.denominator)
    (decimal : Scientific) :
    interval.contains decimal = true ↔
      ((interval.low : ℚ) / interval.denominator < decimal.toRat ∧
        decimal.toRat < (interval.high : ℚ) / interval.denominator) ∨
      (interval.closed = true ∧
        (decimal.toRat = (interval.low : ℚ) / interval.denominator ∨
          decimal.toRat = (interval.high : ℚ) / interval.denominator)) := by
  simp only [contains, Bool.or_eq_true, Bool.and_eq_true, decide_eq_true_eq, beq_iff_eq,
    lt_point_iff divides, point_lt_iff divides, point_eq_iff divides]

/-! ## The interval of a double -/

section Double

variable
  {significand : Nat}
  {exponent : Int}

theorem denominator_ofBinary_pos : 0 < (ofBinary significand exponent).denominator :=
  twoPower_pos (2 - exponent)

/-- A fourth of a unit of the last binary place, in the interval's own scale. -/
theorem quarters_div
    (quarters : ℚ)
    (exponent : Int) :
    quarters * (twoPower (exponent - 2) : ℚ) / (twoPower (2 - exponent) : ℚ) =
      quarters / 4 * 2 ^ exponent := by
  have power := twoPower_div_twoPower (exponent - 2)
  rw [neg_sub, zpow_sub₀ two_ne_zero] at power
  rw [mul_div_assoc, power]
  norm_num
  ring

theorem low_div
    (significant : 0 < significand) :
    ((ofBinary significand exponent).low : ℚ) / (ofBinary significand exponent).denominator =
      (significand - lowerGap significand exponent) * 2 ^ exponent := by
  have four : 4 ≤ 4 * significand := by omega
  simp only [ofBinary, lowerGap]
  push_cast
  rw [quarters_div]
  split
  · rw [Nat.cast_sub (by omega)]
    push_cast
    ring
  · rw [Nat.cast_sub (by omega)]
    push_cast
    ring

theorem high_div :
    ((ofBinary significand exponent).high : ℚ) / (ofBinary significand exponent).denominator =
      (significand + 1 / 2) * 2 ^ exponent := by
  simp only [ofBinary]
  push_cast
  rw [quarters_div]
  ring

theorem value_div :
    ((ofBinary significand exponent).value : ℚ) / (ofBinary significand exponent).denominator =
      significand * 2 ^ exponent := by
  simp only [ofBinary]
  push_cast
  rw [quarters_div]
  ring

/-- What the interval contains is rounded to its double. -/
theorem inInterval_of_contains
    (significant : 0 < significand)
    {decimal : Scientific}
    (contained : (ofBinary significand exponent).contains decimal = true) :
    InInterval decimal.toRat significand exponent := by
  have power : (0 : ℚ) < 2 ^ exponent := by positivity
  have gap := lowerGap_le significand exponent
  rw [contains_iff denominator_ofBinary_pos, low_div significant, high_div] at contained
  rcases contained with ⟨low, high⟩ | ⟨closed, ends⟩
  · rw [← lt_div_iff₀ power] at low
    rw [← div_lt_iff₀ power] at high
    refine ⟨le_of_lt low, le_of_lt high, ?_⟩
    rintro (isLow | isHigh)
    · exact absurd isLow (ne_of_gt low)
    · exact absurd isHigh (ne_of_lt high)
  · have even : significand % 2 = 0 := by simpa [ofBinary] using closed
    have some : 0 < lowerGap significand exponent := by
      unfold lowerGap
      split <;> norm_num
    rw [← div_eq_iff (ne_of_gt power), ← div_eq_iff (ne_of_gt power)] at ends
    refine ⟨?_, ?_, fun _ => even⟩
    · rcases ends with isLow | isHigh <;> linarith
    · rcases ends with isLow | isHigh <;> linarith

end Double

/-! ## The search -/

theorem contains_of_onGrid
    {interval : RoundingInterval}
    {exponent : Int}
    {decimal : Scientific}
    (found : interval.onGrid? exponent = some decimal) :
    interval.contains decimal = true ∧ decimal.exponent = exponent := by
  unfold onGrid? at found
  simp only at found
  split at found
  · rename_i belowIn aboveIn
    obtain rfl := Option.some.inj found
    split
    · exact ⟨aboveIn, rfl⟩
    · exact ⟨belowIn, rfl⟩
  · rename_i belowIn _
    obtain rfl := Option.some.inj found
    exact ⟨belowIn, rfl⟩
  · rename_i _ aboveIn
    obtain rfl := Option.some.inj found
    exact ⟨aboveIn, rfl⟩
  · contradiction

theorem isSome_onGrid_of_contains
    {interval : RoundingInterval}
    {exponent : Int}
    (contained : interval.contains (interval.neighbours exponent).1 = true ∨
      interval.contains (interval.neighbours exponent).2 = true) :
    (interval.onGrid? exponent).isSome = true := by
  unfold onGrid?
  simp only
  split
  · rfl
  · rfl
  · rfl
  · simp_all

/-- The search ends in the interval if the last grid meets it. -/
theorem contains_search
    {interval : RoundingInterval}
    (last : (interval.onGrid? (interval.scale - 17)).isSome = true)
    {digits remaining : Nat}
    (total : digits + remaining = 18)
    (started : digits ≤ 17) :
    interval.contains (interval.search digits remaining) = true := by
  induction remaining generalizing digits with
  | zero => omega
  | succ remaining inductionHypothesis =>
      unfold search
      cases found : interval.onGrid? (interval.scale - digits) with
      | some decimal => exact (contains_of_onGrid found).1
      | none =>
          refine inductionHypothesis (by omega) ?_
          by_contra passed
          obtain rfl : digits = 17 := by omega
          rw [Nat.cast_ofNat] at found
          rw [found] at last
          contradiction

/-- The decimal that is found is on one of the grids. -/
theorem exponent_search
    (interval : RoundingInterval)
    {digits remaining : Nat}
    (total : digits + remaining ≤ 18) :
    interval.scale - 17 ≤ (interval.search digits remaining).exponent := by
  induction remaining generalizing digits with
  | zero => exact le_refl _
  | succ remaining inductionHypothesis =>
      unfold search
      cases found : interval.onGrid? (interval.scale - digits) with
      | some decimal =>
          rw [(contains_of_onGrid found).2]
          omega
      | none => exact inductionHypothesis (by omega)

/-- The double is at least the power of ten that its scale is just above. -/
theorem scale_spec
    {interval : RoundingInterval}
    (divides : 0 < interval.denominator)
    (valued : 0 < interval.value) :
    (10 : ℚ) ^ (interval.scale - 1) ≤ (interval.value : ℚ) / interval.denominator := by
  have denominator : (0 : ℚ) < interval.denominator := by exact_mod_cast divides
  unfold scale
  simp only
  split
  · rename_i whole
    have floor : ((interval.value / interval.denominator : Nat) : ℚ) ≤
        (interval.value : ℚ) / interval.denominator := Nat.cast_div_le
    exact le_trans (ten_pow_length_le whole) floor
  · have bounded := lt_ten_pow_length ((interval.denominator - 1) / interval.value)
    generalize (Nat.toDigits 10 ((interval.denominator - 1) / interval.value)).length = digits
      at bounded ⊢
    rw [zpow_natCast] at bounded
    have natural : (interval.denominator - 1) / interval.value < 10 ^ digits := by
      exact_mod_cast bounded
    have scaled := (Nat.div_lt_iff_lt_mul valued).mp natural
    have cast : (interval.denominator : ℚ) ≤ 10 ^ digits * interval.value := by
      have whole : interval.denominator ≤ 10 ^ digits * interval.value := by omega
      exact_mod_cast whole
    rw [le_div_iff₀ denominator, show (1 : Int) - digits - 1 = -digits by omega, zpow_neg,
      zpow_natCast, inv_mul_le_iff₀ (by positivity)]
    exact cast

/-- The double is between its neighbours on a grid, which are one step apart. -/
theorem neighbours_spec
    {interval : RoundingInterval}
    (divides : 0 < interval.denominator)
    (exponent : Int) :
    (interval.neighbours exponent).1.toRat ≤ (interval.value : ℚ) / interval.denominator ∧
      (interval.value : ℚ) / interval.denominator < (interval.neighbours exponent).2.toRat ∧
      (interval.neighbours exponent).2.toRat =
        (interval.neighbours exponent).1.toRat + 10 ^ exponent := by
  have denominator : (0 : ℚ) < interval.denominator := by exact_mod_cast divides
  have unit : 0 < interval.denominator * tenPower exponent :=
    Nat.mul_pos divides (tenPower_pos exponent)
  have step : (0 : ℚ) < 10 ^ exponent := by positivity
  have scaled : ((interval.value * tenPower (-exponent) : Nat) : ℚ) /
      (interval.denominator * tenPower exponent : Nat) =
      (interval.value : ℚ) / interval.denominator / 10 ^ exponent := by
    have top : (tenPower exponent : ℚ) ≠ 0 := by exact_mod_cast (tenPower_pos exponent).ne'
    have bottom : (tenPower (-exponent) : ℚ) ≠ 0 := by
      exact_mod_cast (tenPower_pos (-exponent)).ne'
    rw [← tenPower_div_tenPower exponent]
    push_cast
    field_simp
  have floorLow : (((interval.value * tenPower (-exponent)) /
      (interval.denominator * tenPower exponent) : Nat) : ℚ) ≤
      (interval.value : ℚ) / interval.denominator / 10 ^ exponent := by
    rw [← scaled]
    exact Nat.cast_div_le
  have floorHigh : (interval.value : ℚ) / interval.denominator / 10 ^ exponent <
      (((interval.value * tenPower (-exponent)) /
        (interval.denominator * tenPower exponent) : Nat) : ℚ) + 1 := by
    rw [← scaled, div_lt_iff₀ (by exact_mod_cast unit), mul_comm (_ + 1 : ℚ)]
    exact_mod_cast Nat.lt_mul_div_succ (interval.value * tenPower (-exponent)) unit
  rw [le_div_iff₀ step] at floorLow
  rw [div_lt_iff₀ step] at floorHigh
  simp only [neighbours, Scientific.toRat]
  push_cast
  exact ⟨floorLow, floorHigh, by ring⟩

/-- A decimal in the interval of a double is on the grid of seventeen digits. -/
theorem onGrid_seventeen
    {significand : Nat}
    {exponent : Int}
    (canonical : IsCanonical significand exponent)
    (significant : 0 < significand) :
    ((ofBinary significand exponent).onGrid?
      ((ofBinary significand exponent).scale - 17)).isSome = true := by
  have divides := @denominator_ofBinary_pos significand exponent
  have power : (0 : ℚ) < 2 ^ exponent := by positivity
  have valued : 0 < (ofBinary significand exponent).value :=
    Nat.mul_pos (Nat.mul_pos (by decide) significant) (twoPower_pos _)
  have scaled := scale_spec divides valued
  obtain ⟨below, above, apart⟩ := neighbours_spec divides
    ((ofBinary significand exponent).scale - 17)
  have contained (decimal : Scientific) := contains_iff divides decimal
  simp only [low_div significant, high_div] at contained
  rw [value_div] at scaled below above
  have step : (10 : ℚ) ^ ((ofBinary significand exponent).scale - 17) * 10 ^ 16 ≤
      significand * 2 ^ exponent := by
    refine le_trans (le_of_eq ?_) scaled
    rw [← zpow_natCast, ← zpow_add₀ (by norm_num)]
    congr 1
    push_cast
    omega
  have least : (1 : ℚ) ≤ significand := by exact_mod_cast significant
  have small : (significand : ℚ) ≤ 2 ^ 53 := by exact_mod_cast Nat.le_of_lt canonical.small
  have wide : (significand : ℚ) ≤ 2 ^ 54 * lowerGap significand exponent := by
    unfold lowerGap
    split
    · rename_i narrow
      rw [narrow.1]
      norm_num [binadeSize]
    · norm_num at small ⊢
      linarith
  have gapWide : significand * (2 : ℚ) ^ exponent ≤
      2 ^ 54 * (lowerGap significand exponent * 2 ^ exponent) := by nlinarith
  have halfWide : significand * (2 : ℚ) ^ exponent ≤ 2 ^ 53 * 2 ^ exponent := by nlinarith
  have valuePositive : 0 < significand * (2 : ℚ) ^ exponent := by positivity
  have expandLow : ((significand : ℚ) - lowerGap significand exponent) * 2 ^ exponent =
      significand * 2 ^ exponent - lowerGap significand exponent * 2 ^ exponent := by ring
  have expandHigh : ((significand : ℚ) + 1 / 2) * 2 ^ exponent =
      significand * 2 ^ exponent + 1 / 2 * 2 ^ exponent := by ring
  rw [expandLow, expandHigh] at contained
  generalize (significand : ℚ) * 2 ^ exponent = value at *
  generalize lowerGap significand exponent * 2 ^ exponent = gap at *
  generalize (2 : ℚ) ^ exponent = unit at *
  generalize (10 : ℚ) ^ ((ofBinary significand exponent).scale - 17) = grid at *
  norm_num at step gapWide halfWide
  apply isSome_onGrid_of_contains
  generalize (ofBinary significand exponent).neighbours
    ((ofBinary significand exponent).scale - 17) = pair at *
  obtain ⟨under, beyond⟩ := pair
  -- The nearer neighbour is at most half a step of the grid away.
  by_cases nearer : 2 * (value - under.toRat) ≤ grid
  · exact .inl ((contained under).mpr (.inl ⟨by linarith, by linarith⟩))
  · exact .inr ((contained beyond).mpr (.inl ⟨by linarith, by linarith⟩))

end RoundingInterval

/-- The shortest decimal of a positive double is rounded to the double. -/
theorem inInterval_shortest
    {significand : Nat}
    {exponent : Int}
    (canonical : IsCanonical significand exponent)
    (significant : 0 < significand) :
    InInterval (shortest significand exponent).toRat significand exponent := by
  unfold shortest
  rw [if_neg (Nat.ne_of_gt significant)]
  exact RoundingInterval.inInterval_of_contains significant (RoundingInterval.contains_search
    (RoundingInterval.onGrid_seventeen canonical significant) rfl (by decide))

end Decimal
end TemplatedMarkup
