import TemplatedMarkup.Proofs.Decimal.Bits

/-!
# Rounding to the nearest double

A quotient of naturals that lies in the rounding interval of a double is rounded to that double.
The interval is narrower below a power of two, where the doubles are twice as dense; a quotient
from there is rounded on the finer grid and carries over into the next binade.
-/

namespace TemplatedMarkup
namespace Decimal

/-! ## Powers as rationals -/

/-- The two naturals that a power of two is written with amount to it. -/
theorem twoPower_div_twoPower (exponent : Int) :
    (twoPower exponent : ℚ) / twoPower (-exponent) = 2 ^ exponent := by
  unfold twoPower
  rcases Int.eq_nat_or_neg exponent with ⟨natural, rfl | rfl⟩
  · simp
  · simp

/-- The two naturals that a power of ten is written with amount to it. -/
theorem tenPower_div_tenPower (exponent : Int) :
    (tenPower exponent : ℚ) / tenPower (-exponent) = 10 ^ exponent := by
  unfold tenPower
  rcases Int.eq_nat_or_neg exponent with ⟨natural, rfl | rfl⟩
  · simp
  · simp

theorem twoPower_pos (exponent : Int) : 0 < twoPower exponent :=
  Nat.pow_pos (by decide)

theorem tenPower_pos (exponent : Int) : 0 < tenPower exponent :=
  Nat.pow_pos (by decide)

/-! ## The nearest natural -/

/-- A quotient at most one half from a natural is rounded to it, a tie only to an even one. -/
theorem roundQuotient_eq
    {numerator denominator nearest : Nat}
    (positive : 0 < denominator)
    (low : (nearest : ℚ) - 1 / 2 ≤ (numerator : ℚ) / denominator)
    (high : (numerator : ℚ) / denominator ≤ nearest + 1 / 2)
    (even : (numerator : ℚ) / denominator = nearest - 1 / 2 ∨
      (numerator : ℚ) / denominator = nearest + 1 / 2 → nearest % 2 = 0) :
    roundQuotient numerator denominator = nearest := by
  have scale : (0 : ℚ) < denominator := by exact_mod_cast positive
  have divided := Nat.div_add_mod numerator denominator
  have bounded := Nat.mod_lt numerator positive
  have lowNatural : 2 * nearest * denominator ≤ 2 * numerator + denominator := by
    rw [le_div_iff₀ scale] at low
    have cast : (2 * nearest * denominator : ℚ) ≤ 2 * numerator + denominator := by linarith
    exact_mod_cast cast
  have highNatural : 2 * numerator ≤ 2 * nearest * denominator + denominator := by
    rw [div_le_iff₀ scale] at high
    have cast : (2 * numerator : ℚ) ≤ 2 * nearest * denominator + denominator := by linarith
    exact_mod_cast cast
  have evenLow (tie : 2 * nearest * denominator = 2 * numerator + denominator) :
      nearest % 2 = 0 := by
    have cast : (2 * nearest * denominator : ℚ) = 2 * numerator + denominator := by
      exact_mod_cast tie
    refine even (.inl ?_)
    rw [div_eq_iff (ne_of_gt scale)]
    linarith
  have evenHigh (tie : 2 * numerator = 2 * nearest * denominator + denominator) :
      nearest % 2 = 0 := by
    have cast : (2 * numerator : ℚ) = 2 * nearest * denominator + denominator := by
      exact_mod_cast tie
    refine even (.inr ?_)
    rw [div_eq_iff (ne_of_gt scale)]
    linarith
  simp only [roundQuotient]
  generalize numerator / denominator = quotient at divided ⊢
  generalize numerator % denominator = remainder at divided bounded ⊢
  have between : quotient ≤ nearest ∧ nearest ≤ quotient + 1 := by
    constructor
    · by_contra above
      nlinarith
    · by_contra below
      nlinarith
  have twice : 2 * quotient * denominator = 2 * (denominator * quotient) := by ring
  obtain rfl | rfl : nearest = quotient ∨ nearest = quotient + 1 := by omega
  · split
    · rfl
    · split
      · omega
      · have tie := evenHigh (by omega)
        omega
  · have next : 2 * (quotient + 1) * denominator = 2 * quotient * denominator + 2 * denominator := by
      ring
    split
    · omega
    · split
      · rfl
      · have tie := evenLow (by omega)
        omega

/-! ## The nearest double -/

/-- A quotient over a power of two, as a numerator and a denominator. -/
theorem scaled_eq
    (numerator denominator : Nat)
    (exponent : Int) :
    (if 0 ≤ exponent then (numerator, denominator * twoPower exponent)
      else (numerator * twoPower (-exponent), denominator)) =
      (numerator * twoPower (-exponent), denominator * twoPower exponent) := by
  unfold twoPower
  split
  · rename_i nonnegative
    have none : (-exponent).toNat = 0 := by omega
    simp [none]
  · rename_i negative
    have none : exponent.toNat = 0 := by omega
    simp [none]

theorem scaled_quotient
    (numerator denominator : Nat)
    (exponent : Int) :
    ((numerator * twoPower (-exponent) : Nat) : ℚ) / (denominator * twoPower exponent : Nat) =
      (numerator : ℚ) / denominator / 2 ^ exponent := by
  have top : (twoPower exponent : ℚ) ≠ 0 := by exact_mod_cast (twoPower_pos exponent).ne'
  have bottom : (twoPower (-exponent) : ℚ) ≠ 0 := by exact_mod_cast (twoPower_pos (-exponent)).ne'
  rw [← twoPower_div_twoPower exponent]
  push_cast
  field_simp

theorem scaled_lt_iff
    {denominator : Nat}
    (divides : 0 < denominator)
    (numerator : Nat)
    (exponent : Int) :
    numerator * twoPower (-exponent) < denominator * twoPower exponent ↔
      (numerator : ℚ) / denominator < 2 ^ exponent := by
  have bottom : (0 : ℚ) < (denominator * twoPower exponent : Nat) := by
    exact_mod_cast Nat.mul_pos divides (twoPower_pos exponent)
  have power : (0 : ℚ) < 2 ^ exponent := by positivity
  rw [← div_lt_one power, ← scaled_quotient, div_lt_one bottom]
  norm_cast

/-- The power of two at or below a quotient. -/
def binadeOf (numerator denominator : Nat) : Int :=
  let estimate : Int := (numerator.log2 : Int) - denominator.log2
  if numerator * twoPower (-estimate) < denominator * twoPower estimate then estimate - 1
  else estimate

/-- The bits of the nearest double, from the power of two below the quotient on. -/
theorem nearestBits_of_pos
    {numerator : Nat}
    (positive : 0 < numerator)
    (denominator : Nat) :
    nearestBits numerator denominator =
      let exponent := max (binadeOf numerator denominator - 52) (-1074)
      min (roundQuotient (numerator * twoPower (-exponent)) (denominator * twoPower exponent) +
        (exponent + 1074).toNat * binadeSize) infinityBits := by
  unfold nearestBits binadeOf
  rw [if_neg (Nat.ne_of_gt positive)]
  simp only [scaled_eq, decide_eq_true_eq]

theorem log2_bounds
    {value : Nat}
    (positive : 0 < value) :
    (2 : ℚ) ^ (value.log2 : Int) ≤ value ∧ (value : ℚ) < 2 ^ ((value.log2 : Int) + 1) := by
  constructor
  · exact_mod_cast Nat.log2_self_le (Nat.ne_of_gt positive)
  · exact_mod_cast Nat.lt_log2_self

/-- A positive quotient lies between its power of two and the next one. -/
theorem binadeOf_spec
    {numerator denominator : Nat}
    (positive : 0 < numerator)
    (divides : 0 < denominator) :
    (2 : ℚ) ^ binadeOf numerator denominator ≤ (numerator : ℚ) / denominator ∧
      (numerator : ℚ) / denominator < 2 ^ (binadeOf numerator denominator + 1) := by
  obtain ⟨topLow, topHigh⟩ := log2_bounds positive
  obtain ⟨bottomLow, bottomHigh⟩ := log2_bounds divides
  have bottom : (0 : ℚ) < denominator := by exact_mod_cast divides
  unfold binadeOf
  simp only [scaled_lt_iff divides]
  generalize hTop : (numerator.log2 : Int) = top at topLow topHigh
  generalize hBottom : (denominator.log2 : Int) = under at bottomLow bottomHigh
  have lower : (2 : ℚ) ^ (top - under - 1) ≤ (numerator : ℚ) / denominator := by
    rw [le_div_iff₀ bottom]
    calc (2 : ℚ) ^ (top - under - 1) * denominator
        ≤ 2 ^ (top - under - 1) * 2 ^ (under + 1) := by gcongr
      _ = 2 ^ top := by rw [← zpow_add₀ two_ne_zero]; ring_nf
      _ ≤ numerator := topLow
  have upper : (numerator : ℚ) / denominator < 2 ^ (top - under + 1) := by
    rw [div_lt_iff₀ bottom]
    calc (numerator : ℚ) < 2 ^ (top + 1) := topHigh
      _ = 2 ^ (top - under + 1) * 2 ^ under := by rw [← zpow_add₀ two_ne_zero]; ring_nf
      _ ≤ 2 ^ (top - under + 1) * denominator := by gcongr
  split
  · rename_i below
    exact ⟨lower, by rwa [Int.sub_add_cancel]⟩
  · rename_i above
    exact ⟨not_lt.mp above, upper⟩

/-- Half the gap below a double; the gap is half as wide below a power of two. -/
def lowerGap
    (significand : Nat)
    (exponent : Int) : ℚ :=
  if significand = binadeSize ∧ -1074 < exponent then 1 / 4 else 1 / 2

/-- The quotients that are rounded to a double; the bounds belong to an even significand. -/
structure InInterval
    (quotient : ℚ)
    (significand : Nat)
    (exponent : Int) : Prop where
  /-- At most half the gap below the double. -/
  low : significand - lowerGap significand exponent ≤ quotient / 2 ^ exponent
  /-- At most half the gap above the double. -/
  high : quotient / 2 ^ exponent ≤ significand + 1 / 2
  /-- A bound is rounded to an even significand only. -/
  even : quotient / 2 ^ exponent = significand - lowerGap significand exponent ∨
    quotient / 2 ^ exponent = significand + 1 / 2 → significand % 2 = 0

section Nearest

variable
  {numerator denominator significand : Nat}
  {exponent : Int}

/-- The power of two below a quotient is the one that it is at least, with the next one above. -/
theorem binadeOf_eq
    (positive : 0 < numerator)
    (divides : 0 < denominator)
    {binade : Int}
    (low : (2 : ℚ) ^ binade ≤ (numerator : ℚ) / denominator)
    (high : (numerator : ℚ) / denominator < 2 ^ (binade + 1)) :
    binadeOf numerator denominator = binade := by
  obtain ⟨ownLow, ownHigh⟩ := binadeOf_spec positive divides
  have above := (zpow_lt_zpow_iff_right₀ one_lt_two).mp (lt_of_le_of_lt ownLow high)
  have below := (zpow_lt_zpow_iff_right₀ one_lt_two).mp (lt_of_le_of_lt low ownHigh)
  omega

/-- A quotient that is rounded on the grid of the double has the bits of the double. -/
theorem nearestBits_of_grid
    (positive : 0 < numerator)
    (divides : 0 < denominator)
    {grid : Int}
    {nearest : Nat}
    (isGrid : max (binadeOf numerator denominator - 52) (-1074) = grid)
    (low : (nearest : ℚ) - 1 / 2 ≤ (numerator : ℚ) / denominator / 2 ^ grid)
    (high : (numerator : ℚ) / denominator / 2 ^ grid ≤ nearest + 1 / 2)
    (even : (numerator : ℚ) / denominator / 2 ^ grid = nearest - 1 / 2 ∨
      (numerator : ℚ) / denominator / 2 ^ grid = nearest + 1 / 2 → nearest % 2 = 0) :
    nearestBits numerator denominator =
      min (nearest + (grid + 1074).toNat * binadeSize) infinityBits := by
  have bottom := Nat.mul_pos divides (twoPower_pos grid)
  rw [nearestBits_of_pos positive]
  simp only [isGrid]
  rw [roundQuotient_eq bottom]
  · rwa [scaled_quotient]
  · rwa [scaled_quotient]
  · rwa [scaled_quotient]

theorem lowerGap_le
    (significand : Nat)
    (exponent : Int) :
    lowerGap significand exponent ≤ 1 / 2 := by
  unfold lowerGap
  split <;> norm_num

theorem div_zpow_le_iff
    (quotient : ℚ)
    (exponent shift : Int) :
    (2 : ℚ) ^ shift ≤ quotient / 2 ^ exponent ↔ 2 ^ (shift + exponent) ≤ quotient := by
  have power : (0 : ℚ) < 2 ^ exponent := by positivity
  rw [le_div_iff₀ power, zpow_add₀ two_ne_zero]

theorem div_zpow_lt_iff
    (quotient : ℚ)
    (exponent shift : Int) :
    quotient / 2 ^ exponent < 2 ^ shift ↔ quotient < 2 ^ (shift + exponent) := by
  have power : (0 : ℚ) < 2 ^ exponent := by positivity
  rw [div_lt_iff₀ power, zpow_add₀ two_ne_zero]

/-- A quotient in the interval of a double has the bits of the double as its nearest ones. -/
theorem nearestBits_eq
    (divides : 0 < denominator)
    (canonical : IsCanonical significand exponent)
    (significant : 0 < significand)
    (inside : InInterval ((numerator : ℚ) / denominator) significand exponent) :
    nearestBits numerator denominator = min (bitsOf significand exponent) infinityBits := by
  obtain ⟨low, high, even⟩ := inside
  have gap := lowerGap_le significand exponent
  have least : (1 : ℚ) ≤ significand := by exact_mod_cast significant
  have power : (0 : ℚ) < 2 ^ exponent := by positivity
  have scaledPositive : (0 : ℚ) < (numerator : ℚ) / denominator / 2 ^ exponent := by linarith
  have positive : 0 < numerator := by
    rcases Nat.eq_zero_or_pos numerator with rfl | positive
    · simp at scaledPositive
    · exact positive
  have small : (significand : ℚ) ≤ 2 ^ (53 : Int) - 1 := by
    have natural : significand + 1 ≤ 2 ^ 53 := canonical.small
    have cast : (significand : ℚ) + 1 ≤ 2 ^ 53 := by exact_mod_cast natural
    norm_num at cast ⊢
    linarith
  have belowBinade : (numerator : ℚ) / denominator / 2 ^ exponent < 2 ^ (53 : Int) := by linarith
  have lowest := canonical.lowest
  have onOwnGrid (isGrid : max (binadeOf numerator denominator - 52) (-1074) = exponent) :
      nearestBits numerator denominator = min (bitsOf significand exponent) infinityBits := by
    refine nearestBits_of_grid positive divides isGrid (by linarith) high ?_
    rintro (tieLow | tieHigh)
    · exact even (.inl (by linarith))
    · exact even (.inr tieHigh)
  have ownHigh := (div_zpow_lt_iff _ _ _).mp belowBinade
  by_cases inBinade : (2 : ℚ) ^ (52 : Int) ≤ (numerator : ℚ) / denominator / 2 ^ exponent
  · -- The quotient has the double's own power of two below it.
    have ownLow := (div_zpow_le_iff _ _ _).mp inBinade
    apply onOwnGrid
    rw [binadeOf_eq positive divides ownLow
      (by rwa [show (52 : Int) + exponent + 1 = 53 + exponent by omega])]
    omega
  · have below := (div_zpow_lt_iff _ _ _).mp (not_le.mp inBinade)
    by_cases subnormal : exponent = -1074
    · -- The grid of the subnormal doubles is never left.
      have ownLow := (binadeOf_spec positive divides).1
      have less := (zpow_lt_zpow_iff_right₀ one_lt_two).mp (lt_of_le_of_lt ownLow below)
      apply onOwnGrid
      omega
    · -- The quotient is just below a power of two and is rounded up to it on the finer grid.
      have above : -1074 < exponent := by omega
      have normal := canonical.normal above
      have powerOfTwo : significand = binadeSize := by
        by_contra other
        have next : 4503599627370497 ≤ significand := by
          change binadeSize + 1 ≤ significand
          omega
        have cast : (4503599627370497 : ℚ) ≤ significand := by exact_mod_cast next
        refine inBinade ?_
        norm_num
        linarith
      subst powerOfTwo
      have cast : ((binadeSize : Nat) : ℚ) = 4503599627370496 := by norm_num [binadeSize]
      have narrow : lowerGap binadeSize exponent = 1 / 4 := if_pos ⟨rfl, above⟩
      rw [narrow, cast] at low
      have ownLow : (2 : ℚ) ^ ((51 : Int) + exponent) ≤ (numerator : ℚ) / denominator := by
        refine (div_zpow_le_iff _ _ _).mp ?_
        norm_num
        linarith
      have isGrid : max (binadeOf numerator denominator - 52) (-1074) = exponent - 1 := by
        rw [binadeOf_eq positive divides ownLow
          (by rwa [show (51 : Int) + exponent + 1 = 52 + exponent by omega])]
        omega
      have finer : (numerator : ℚ) / denominator / 2 ^ (exponent - 1) =
          2 * ((numerator : ℚ) / denominator / 2 ^ exponent) := by
        rw [zpow_sub_one₀ two_ne_zero]
        field_simp
      have rounded := @nearestBits_of_grid _ _ positive divides _ (2 * binadeSize) isGrid
        (by push_cast; rw [finer, cast]; linarith)
        (by
          have less := not_le.mp inBinade
          push_cast
          rw [finer, cast]
          norm_num at less
          linarith)
        (fun _ => by decide)
      have carried : 2 * binadeSize + (exponent - 1 + 1074).toNat * binadeSize =
          bitsOf binadeSize exponent := by
        have shifted : (exponent + 1074).toNat = (exponent - 1 + 1074).toNat + 1 := by omega
        have expanded := Nat.add_one_mul (exponent - 1 + 1074).toNat binadeSize
        rw [bitsOf, shifted]
        omega
      rw [rounded, carried]

end Nearest

/-! ## The double nearest to a decimal -/

/-- A natural number is below the power of ten that has one digit more. -/
theorem lt_ten_pow_length (value : Nat) :
    (value : ℚ) < 10 ^ ((Nat.toDigits 10 value).length : Int) := by
  have bounded := (Nat.length_toDigits_le_iff (by decide) Nat.length_toDigits_pos).mp
    (Nat.le_refl (Nat.toDigits 10 value).length)
  exact_mod_cast bounded

/-- A positive natural number is at least the power of ten with as many digits. -/
theorem ten_pow_length_le
    {value : Nat}
    (positive : 0 < value) :
    (10 : ℚ) ^ (((Nat.toDigits 10 value).length : Int) - 1) ≤ value := by
  have nonempty : 0 < (Nat.toDigits 10 value).length := Nat.length_toDigits_pos
  obtain ⟨more, isSucc⟩ : ∃ more, (Nat.toDigits 10 value).length = more + 1 :=
    ⟨_, (Nat.sub_add_cancel nonempty).symm⟩
  have bounded : 10 ^ more ≤ value := by
    rcases Nat.eq_zero_or_pos more with rfl | several
    · exact positive
    · by_contra less
      have short := (Nat.length_toDigits_le_iff (by decide) several).mpr (not_le.mp less)
      omega
  rw [isSucc]
  push_cast
  rw [add_sub_cancel_right]
  exact_mod_cast bounded

section Decimal

variable
  {significand : Nat}
  {exponent : Int}

/-- The exponent of a finite double is bounded. -/
theorem IsCanonical.exponent_le
    (finite : bitsOf significand exponent < infinityBits) :
    exponent ≤ 972 := by
  have scaled : (exponent + 1074).toNat * binadeSize < 2047 * binadeSize :=
    Nat.lt_of_le_of_lt (Nat.le_add_left _ _) finite
  have biased := Nat.lt_of_mul_lt_mul_right scaled
  omega

/-- The powers of two that doubles reach in powers of ten. -/
theorem two_zpow_lt_ten_zpow : (2 : ℚ) ^ (43 * 25 : Int) < 10 ^ (13 * 25 : Int) := by
  rw [zpow_mul, zpow_mul]
  exact zpow_lt_zpow_left₀ (by decide) (by positivity) (by norm_num)

/-- What is rounded to a finite double is neither tiny nor huge. -/
theorem InInterval.bounds
    {quotient : ℚ}
    (inside : InInterval quotient significand exponent)
    (canonical : IsCanonical significand exponent)
    (significant : 0 < significand)
    (finite : bitsOf significand exponent < infinityBits) :
    (10 : ℚ) ^ (-(13 * 25) : Int) < quotient ∧ quotient < 10 ^ (13 * 25 : Int) := by
  have power : (0 : ℚ) < 2 ^ exponent := by positivity
  have gap := lowerGap_le significand exponent
  have least : (1 : ℚ) ≤ significand := by exact_mod_cast significant
  have small : (significand : ℚ) ≤ 2 ^ (53 : Int) - 1 := by
    have natural : significand + 1 ≤ 2 ^ 53 := canonical.small
    have cast : (significand : ℚ) + 1 ≤ 2 ^ 53 := by exact_mod_cast natural
    norm_num at cast ⊢
    linarith
  have highest := IsCanonical.exponent_le finite
  have lowest := canonical.lowest
  constructor
  · have low : (2 : ℚ) ^ (-1 : Int) ≤ quotient / 2 ^ exponent := by
      have bound := inside.low
      norm_num
      linarith
    calc (10 : ℚ) ^ (-(13 * 25) : Int)
        < 2 ^ (-(43 * 25) : Int) := by
          rw [zpow_neg, zpow_neg]
          exact inv_strictAnti₀ (by positivity) two_zpow_lt_ten_zpow
      _ ≤ 2 ^ (-1 + exponent) := zpow_le_zpow_right₀ one_le_two (by omega)
      _ ≤ quotient := (div_zpow_le_iff _ _ _).mp low
  · have high : quotient / 2 ^ exponent < 2 ^ (53 : Int) := by
      have bound := inside.high
      linarith
    calc quotient
        < 2 ^ (53 + exponent) := (div_zpow_lt_iff _ _ _).mp high
      _ ≤ 2 ^ (43 * 25 : Int) := zpow_le_zpow_right₀ one_le_two (by omega)
      _ < 10 ^ (13 * 25 : Int) := two_zpow_lt_ten_zpow

/-- A decimal in the interval of a finite double is read as that double. -/
theorem nearest_eq
    (canonical : IsCanonical significand exponent)
    (significant : 0 < significand)
    (finite : bitsOf significand exponent < infinityBits)
    {digits : Nat}
    {power : Int}
    (inside : InInterval (digits * 10 ^ power) significand exponent) :
    nearest false digits power = withSign false (bitsOf significand exponent) := by
  obtain ⟨least, most⟩ := inside.bounds canonical significant finite
  have tens : (0 : ℚ) < 10 ^ power := by positivity
  have positive : 0 < digits := by
    rcases Nat.eq_zero_or_pos digits with rfl | positive
    · have small : (0 : ℚ) < 10 ^ (-(13 * 25) : Int) := by positivity
      rw [Nat.cast_zero, zero_mul] at least
      linarith
    · exact positive
  have notTiny : ¬ ((Nat.toDigits 10 digits).length : Int) + power < -400 := by
    intro tiny
    have below : (digits : ℚ) * 10 ^ power <
        10 ^ (((Nat.toDigits 10 digits).length : Int) + power) := by
      rw [zpow_add₀ (by norm_num)]
      have bounded := lt_ten_pow_length digits
      gcongr
    have less := (zpow_lt_zpow_iff_right₀ (by norm_num)).mp (lt_trans least below)
    omega
  have notHuge : ¬ (400 : Int) < (Nat.toDigits 10 digits).length + power := by
    intro huge
    have above : (10 : ℚ) ^ (((Nat.toDigits 10 digits).length : Int) - 1 + power) ≤
        digits * 10 ^ power := by
      rw [zpow_add₀ (by norm_num)]
      have bounded := ten_pow_length_le positive
      gcongr
    have less := (zpow_lt_zpow_iff_right₀ (by norm_num)).mp (lt_of_le_of_lt above most)
    omega
  have quotient : ((digits * tenPower power : Nat) : ℚ) / (tenPower (-power) : Nat) =
      digits * 10 ^ power := by
    rw [← tenPower_div_tenPower]
    push_cast
    ring
  have rounded := nearestBits_eq (tenPower_pos (-power)) canonical significant
    (by rwa [quotient])
  have oneQuotient : (if 0 ≤ power then nearestBits (digits * tenPower power) 1
      else nearestBits digits (tenPower (-power))) =
      nearestBits (digits * tenPower power) (tenPower (-power)) := by
    unfold tenPower
    split
    · have none : (-power).toNat = 0 := by omega
      simp [none]
    · have none : power.toNat = 0 := by omega
      simp [none]
  unfold nearest
  simp only
  rw [if_neg (by omega), if_neg notHuge, oneQuotient, rounded,
    Nat.min_eq_left (Nat.le_of_lt finite)]

end Decimal

end Decimal
end TemplatedMarkup
