import TemplatedMarkup.Proofs.Decimal.Shortest

/-!
# The text of a double

A double below the bound of the notation is written with a point, and its digits are rounded to
it.  From the bound on, all doubles are integral and the finite ones are written with digits only.
-/

namespace TemplatedMarkup
namespace Decimal

/-- A text of ASCII digits only, at least one. -/
structure IsDigits (text : List Char) : Prop where
  /-- There is a digit. -/
  nonempty : text ≠ []
  /-- There is nothing else. -/
  digits : ∀ character ∈ text, character.isDigit = true

theorem isDigits_toDigits (value : Nat) : IsDigits (Nat.toDigits 10 value) :=
  ⟨Nat.toDigits_ne_nil, fun _ among =>
    Nat.isDigit_of_mem_toDigits (by decide) (by decide) among⟩

theorem digitsValue_append_zeros
    (text : List Char)
    (count : Nat) :
    digitsValue (text ++ List.replicate count '0') = digitsValue text * 10 ^ count := by
  unfold digitsValue
  rw [Nat.ofDigitChars_append, Nat.ofDigitChars_replicate_zero, Nat.mul_comm]

theorem digitsValue_zeros_append
    (count : Nat)
    (text : List Char) :
    digitsValue (List.replicate count '0' ++ text) = digitsValue text := by
  unfold digitsValue
  rw [Nat.ofDigitChars_append, Nat.ofDigitChars_replicate_zero, Nat.mul_zero]

theorem isDigit_of_mem_replicate_zero
    {count : Nat}
    {character : Char}
    (among : character ∈ List.replicate count '0') :
    character.isDigit = true := by
  rw [List.eq_of_mem_replicate among]
  rfl

/-- A decimal without fraction is a natural number. -/
theorem Scientific.toRat_of_nonneg
    {decimal : Scientific}
    (whole : 0 ≤ decimal.exponent) :
    decimal.toRat = (decimal.digits * tenPower decimal.exponent : Nat) := by
  have none : tenPower (-decimal.exponent) = 1 := by
    have zero : (-decimal.exponent).toNat = 0 := by omega
    simp [tenPower, zero]
  rw [Scientific.toRat, ← tenPower_div_tenPower, none]
  push_cast
  ring

/-- A decimal without fraction is written as its digits and zeros. -/
theorem positional_of_nonneg
    {decimal : Scientific}
    (whole : 0 ≤ decimal.exponent) :
    IsDigits (positional decimal) := by
  unfold positional
  rw [if_pos whole]
  have digits := isDigits_toDigits decimal.digits
  refine ⟨by simp [digits.nonempty], fun character among => ?_⟩
  cases List.mem_append.mp among with
  | inl front => exact digits.digits character front
  | inr zeros => exact isDigit_of_mem_replicate_zero zeros

/-- A text is what is left without the zeros at its end, and these zeros. -/
theorem exists_eq_append_zeros (text : List Char) :
    ∃ count, text = (text.reverse.dropWhile (· == '0')).reverse ++ List.replicate count '0' := by
  refine ⟨(text.reverse.takeWhile (· == '0')).length, ?_⟩
  have zeros : text.reverse.takeWhile (· == '0') =
      List.replicate (text.reverse.takeWhile (· == '0')).length '0' := by
    refine List.eq_replicate_of_mem fun character among => ?_
    simpa using List.all_eq_true.mp List.all_takeWhile character among
  have split := List.takeWhile_append_dropWhile (p := (· == '0')) (l := text.reverse)
  rw [zeros] at split
  rw [← List.reverse_inj, List.reverse_append, List.reverse_reverse, List.reverse_replicate, split]

/-- A decimal with a fraction is written around a point, unless all of the fraction is zeros. -/
theorem positional_of_neg
    {decimal : Scientific}
    (places : decimal.exponent < 0) :
    ∃ whole fraction, IsDigits whole ∧ (∀ character ∈ fraction, character.isDigit = true) ∧
      digitsValue (whole ++ fraction) * (10 : ℚ) ^ (-(fraction.length : Int)) = decimal.toRat ∧
      positional decimal = if fraction.isEmpty then whole else whole ++ '.' :: fraction := by
  have digits := isDigits_toDigits decimal.digits
  have reads : digitsValue (Nat.toDigits 10 decimal.digits) = decimal.digits :=
    Nat.ofDigitChars_ten_toDigits
  obtain ⟨count, isCount⟩ : ∃ count : Nat, decimal.exponent = -(count : Int) :=
    ⟨(-decimal.exponent).toNat, by omega⟩
  unfold positional
  rw [if_neg (by omega)]
  simp only [isCount, neg_neg, Int.toNat_natCast]
  generalize padding : List.replicate (count + 1 - (Nat.toDigits 10 decimal.digits).length) '0' ++
    Nat.toDigits 10 decimal.digits = padded
  have paddedDigits : ∀ character ∈ padded, character.isDigit = true := by
    subst padding
    intro character among
    cases List.mem_append.mp among with
    | inl zeros => exact isDigit_of_mem_replicate_zero zeros
    | inr own => exact digits.digits character own
  have paddedValue : digitsValue padded = decimal.digits := by
    rw [← padding, digitsValue_zeros_append, reads]
  have paddedLength : count + 1 ≤ padded.length := by
    rw [← padding, List.length_append, List.length_replicate]
    omega
  have tailLength : (padded.drop (padded.length - count)).length = count := by
    rw [List.length_drop]
    omega
  have whole : padded.take (padded.length - count) ++ padded.drop (padded.length - count) =
      padded := List.take_append_drop _ _
  have wholeLength : (padded.take (padded.length - count)).length = padded.length - count := by
    rw [List.length_take]
    omega
  obtain ⟨zeros, split⟩ := exists_eq_append_zeros (padded.drop (padded.length - count))
  generalize padded.take (padded.length - count) = front at whole wholeLength ⊢
  generalize padded.drop (padded.length - count) = tail at whole tailLength split ⊢
  generalize tail.reverse.dropWhile (· == '0') = reversed at split ⊢
  subst split
  subst whole
  rw [List.length_append, List.length_replicate, List.length_reverse] at tailLength
  refine ⟨front, reversed.reverse, ⟨?_, fun character among => ?_⟩, fun character among => ?_, ?_,
    by simp⟩
  · rintro rfl
    rw [List.length_nil] at wholeLength
    omega
  · exact paddedDigits character (by simp [among])
  · exact paddedDigits character (by
      rw [List.mem_append, List.mem_append]
      exact .inr (.inl among))
  · rw [← List.append_assoc, digitsValue_append_zeros] at paddedValue
    rw [Scientific.toRat, isCount, ← paddedValue, List.length_reverse, ← tailLength]
    push_cast
    rw [neg_add, zpow_add₀ (by norm_num), zpow_neg _ (zeros : Int), zpow_natCast]
    field_simp

/-! ## The literals of doubles -/

section Double

variable
  {significand : Nat}
  {exponent : Int}

/-- A double is in its own interval. -/
theorem inInterval_self
    (significand : Nat)
    (exponent : Int) :
    InInterval (significand * 2 ^ exponent) significand exponent := by
  have power : (0 : ℚ) < 2 ^ exponent := by positivity
  have own : (significand : ℚ) * 2 ^ exponent / 2 ^ exponent = significand :=
    mul_div_cancel_right₀ _ (ne_of_gt power)
  have gap : 0 < lowerGap significand exponent := by
    unfold lowerGap
    split <;> norm_num
  refine ⟨?_, ?_, ?_⟩
  · rw [own]
    linarith
  · rw [own]
    linarith
  · rw [own]
    rintro (isLow | isHigh) <;> linarith

/-- A finite double without a sign and the numbers that it is made of. -/
structure Represents
    (value : Float)
    (significand : Nat)
    (exponent : Int) : Prop where
  /-- The numbers are those of a double. -/
  canonical : IsCanonical significand exponent
  /-- The double is finite. -/
  finite : bitsOf significand exponent < infinityBits
  /-- The numbers side by side are its bits. -/
  eq_withSign : value = withSign false (bitsOf significand exponent)

variable {value : Float}

theorem Represents.magnitude_eq
    (represents : Represents value significand exponent) :
    magnitude value = .finite significand exponent := by
  rw [represents.eq_withSign]
  exact magnitude_withSign represents.canonical represents.finite

theorem Represents.isNegative_eq
    (represents : Represents value significand exponent) :
    isNegative value = false := by
  rw [represents.eq_withSign]
  exact isNegative_withSign (Nat.le_of_lt represents.finite)

theorem Represents.abs_eq
    (represents : Represents value significand exponent) :
    value.abs = value := by
  rw [represents.eq_withSign]
  exact abs_withSign (Nat.le_of_lt represents.finite)

theorem Represents.isIntegral_iff
    (represents : Represents value significand exponent) :
    isIntegral value = true ↔ 0 ≤ exponent ∨ significand % twoPower (-exponent) = 0 := by
  simp [isIntegral, represents.magnitude_eq]

/-- A decimal in the interval of a double is read as the double. -/
theorem Represents.nearest_eq
    (represents : Represents value significand exponent)
    (significant : 0 < significand)
    {digits : Nat}
    {power : Int}
    (inside : InInterval (digits * 10 ^ power) significand exponent) :
    nearest false digits power = value := by
  rw [represents.eq_withSign]
  exact Decimal.nearest_eq represents.canonical significant represents.finite inside

/-- The integer part of an integral double is the double itself. -/
theorem Represents.wholePart_eq
    (represents : Represents value significand exponent)
    (integral : isIntegral value = true) :
    (wholePart value : ℚ) = significand * 2 ^ exponent := by
  have divides : twoPower (-exponent) ∣ significand * twoPower exponent := by
    cases represents.isIntegral_iff.mp integral with
    | inl nonnegative =>
        have none : (-exponent).toNat = 0 := by omega
        simp [twoPower, none]
    | inr multiple => exact Nat.dvd_mul_right_of_dvd (Nat.dvd_of_mod_eq_zero multiple) _
  have nonzero : (twoPower (-exponent) : ℚ) ≠ 0 := by
    exact_mod_cast (twoPower_pos (-exponent)).ne'
  simp only [wholePart, represents.magnitude_eq]
  rw [Nat.cast_div divides nonzero, ← twoPower_div_twoPower exponent]
  push_cast
  ring

/-- What an integral double below the bound is written as reads as the double. -/
theorem Represents.ofDigits_wholePart
    (represents : Represents value significand exponent)
    (integral : isIntegral value = true) :
    ofDigits false (Nat.toDigits 10 (wholePart value)) ['0'] 0 = value := by
  have whole := represents.wholePart_eq integral
  generalize wholePart value = natural at whole ⊢
  have reads : digitsValue (Nat.toDigits 10 natural ++ ['0']) = natural * 10 := by
    have shifted := digitsValue_append_zeros (Nat.toDigits 10 natural) 1
    have digits : digitsValue (Nat.toDigits 10 natural) = natural := Nat.ofDigitChars_ten_toDigits
    rw [digits] at shifted
    simpa using shifted
  unfold ofDigits
  rw [reads]
  rcases Nat.eq_zero_or_pos significand with rfl | significant
  · obtain rfl := represents.canonical.eq_of_eq_zero
    rw [Nat.cast_zero, zero_mul] at whole
    obtain rfl : natural = 0 := by exact_mod_cast whole
    rw [represents.eq_withSign]
    rfl
  · apply represents.nearest_eq significant
    have same : ((natural * 10 : Nat) : ℚ) * 10 ^ ((0 : Int) - (['0'] : List Char).length) =
        significand * 2 ^ exponent := by
      rw [← whole]
      push_cast
      norm_num
      ring
    rw [same]
    exact inInterval_self significand exponent

/-- No integer is rounded to a double that is not integral. -/
theorem integral_of_inInterval
    {natural : Nat}
    (inside : InInterval natural significand exponent)
    (fractional : exponent < 0) :
    significand % twoPower (-exponent) = 0 := by
  have gap := lowerGap_le significand exponent
  have scaled : (natural : ℚ) / 2 ^ exponent = (natural * twoPower (-exponent) : Nat) := by
    have none : twoPower exponent = 1 := by
      have zero : exponent.toNat = 0 := by omega
      simp [twoPower, zero]
    rw [← twoPower_div_twoPower, none]
    push_cast
    field_simp
  obtain ⟨low, high, -⟩ := inside
  rw [scaled] at low high
  have nearest : significand = natural * twoPower (-exponent) := by
    have atMost : (2 * significand : ℚ) ≤ 2 * (natural * twoPower (-exponent) : Nat) + 1 := by
      linarith
    have atLeast : (2 * (natural * twoPower (-exponent) : Nat) : ℚ) ≤ 2 * significand + 1 := by
      linarith
    have naturalMost : 2 * significand ≤ 2 * (natural * twoPower (-exponent)) + 1 := by
      exact_mod_cast atMost
    have naturalLeast : 2 * (natural * twoPower (-exponent)) ≤ 2 * significand + 1 := by
      exact_mod_cast atLeast
    omega
  rw [nearest, Nat.mul_mod_left]

/-- The shortest decimal of a double that is not integral has digits behind the point. -/
theorem Represents.ofDigits_positional
    (represents : Represents value significand exponent)
    (notIntegral : ¬ isIntegral value = true) :
    ∃ whole fraction, IsDigits whole ∧ IsDigits fraction ∧
      positional (shortest significand exponent) = whole ++ '.' :: fraction ∧
      ofDigits false whole fraction 0 = value := by
  rw [represents.isIntegral_iff, not_or] at notIntegral
  obtain ⟨fractional, notMultiple⟩ := notIntegral
  have significant : 0 < significand := by
    rcases Nat.eq_zero_or_pos significand with rfl | positive
    · exact absurd (Nat.zero_mod _) notMultiple
    · exact positive
  have inside := inInterval_shortest represents.canonical significant
  have notNatural (natural : Nat) : (natural : ℚ) ≠ (shortest significand exponent).toRat :=
    fun same => notMultiple (integral_of_inInterval (by rwa [same]) (by omega))
  have places : (shortest significand exponent).exponent < 0 := by
    by_contra whole
    exact notNatural _ (Scientific.toRat_of_nonneg (by omega)).symm
  obtain ⟨whole, fraction, wholeDigits, fractionDigits, same, written⟩ := positional_of_neg places
  have nonempty : fraction ≠ [] := by
    rintro rfl
    exact notNatural (digitsValue whole) (by simpa using same)
  refine ⟨whole, fraction, wholeDigits, ⟨nonempty, fractionDigits⟩, ?_, ?_⟩
  · rw [written, if_neg (by simpa using nonempty)]
  · apply represents.nearest_eq significant
    rwa [zero_sub, same]

/-- A double from the bound on has at least seventeen digits before the point. -/
theorem scale_ofBinary_of_large
    (large : 1 < exponent ∨ exponent = 1 ∧ 5000000000000000 ≤ significand)
    (normal : binadeSize ≤ significand) :
    17 ≤ (RoundingInterval.ofBinary significand exponent).scale := by
  have divides := @RoundingInterval.denominator_ofBinary_pos significand exponent
  have denominator : (0 : ℚ) < (RoundingInterval.ofBinary significand exponent).denominator := by
    exact_mod_cast divides
  have bound : (10000000000000000 : ℚ) ≤
      (RoundingInterval.ofBinary significand exponent).value /
        (RoundingInterval.ofBinary significand exponent).denominator := by
    rw [RoundingInterval.value_div]
    rcases large with above | ⟨rfl, most⟩
    · have four : (4 : ℚ) ≤ 2 ^ exponent := by
        calc (4 : ℚ) = 2 ^ (2 : Int) := by norm_num
          _ ≤ 2 ^ exponent := zpow_le_zpow_right₀ one_le_two (by omega)
      have cast : ((4503599627370496 : Nat) : ℚ) ≤ significand := by exact_mod_cast normal
      push_cast at cast
      nlinarith
    · have cast : ((5000000000000000 : Nat) : ℚ) ≤ significand := by exact_mod_cast most
      push_cast at cast
      rw [zpow_one]
      linarith
  rw [le_div_iff₀ denominator] at bound
  have whole : 10000000000000000 ≤ (RoundingInterval.ofBinary significand exponent).value /
      (RoundingInterval.ofBinary significand exponent).denominator := by
    rw [Nat.le_div_iff_mul_le divides]
    exact_mod_cast bound
  have long : ¬ (Nat.toDigits 10 ((RoundingInterval.ofBinary significand exponent).value /
      (RoundingInterval.ofBinary significand exponent).denominator)).length ≤ 16 := by
    rw [Nat.length_toDigits_le_iff (by decide) (by decide)]
    omega
  unfold RoundingInterval.scale
  simp only
  rw [if_pos (by omega)]
  omega

/-- A double from the bound on is written with digits only. -/
theorem isDigits_positional_shortest
    (large : 1 < exponent ∨ exponent = 1 ∧ 5000000000000000 ≤ significand)
    (normal : binadeSize ≤ significand) :
    IsDigits (positional (shortest significand exponent)) := by
  apply positional_of_nonneg
  unfold shortest
  rw [if_neg (Nat.ne_of_gt (Nat.lt_of_lt_of_le (by decide) normal))]
  have found := @RoundingInterval.exponent_search
    (RoundingInterval.ofBinary significand exponent) 1 17 (by decide)
  have digits := scale_ofBinary_of_large large normal
  omega

/-- The literal of a finite double below the bound is written with a point and reads as it. -/
theorem Represents.floatLiteral_of_lt
    (represents : Represents value significand exponent)
    (below : value < fractionBound) :
    ∃ whole fraction, IsDigits whole ∧ IsDigits fraction ∧
      floatLiteral value = whole ++ '.' :: fraction ∧
      ofDigits false whole fraction 0 = value := by
  by_cases integral : isIntegral value = true
  · refine ⟨Nat.toDigits 10 (wholePart value), ['0'], isDigits_toDigits _, ⟨by simp, by simp⟩, ?_,
      represents.ofDigits_wholePart integral⟩
    simp [floatLiteral, integral, represents.abs_eq, below, represents.isNegative_eq]
  · obtain ⟨whole, fraction, wholeDigits, fractionDigits, written, reads⟩ :=
      represents.ofDigits_positional integral
    refine ⟨whole, fraction, wholeDigits, fractionDigits, ?_, reads⟩
    simp [floatLiteral, floatText, magnitudeText, integral, represents.magnitude_eq,
      represents.isNegative_eq, written]

/-- The literal of a finite double from the bound on is written with digits only. -/
theorem Represents.floatLiteral_of_not_lt
    (represents : Represents value significand exponent)
    (notBelow : ¬ value < fractionBound) :
    IsDigits (floatLiteral value) := by
  have significant : 0 < significand := by
    rcases Nat.eq_zero_or_pos significand with rfl | positive
    · obtain rfl := represents.canonical.eq_of_eq_zero
      exact absurd zero_lt_fractionBound (by rwa [represents.eq_withSign] at notBelow)
    · exact positive
  have large : 1 < exponent ∨ exponent = 1 ∧ 5000000000000000 ≤ significand := by
    rw [represents.eq_withSign, withSign_lt_fractionBound_iff represents.canonical significant
      represents.finite] at notBelow
    omega
  have normal := represents.canonical.normal (by omega)
  have written : floatLiteral value = positional (shortest significand exponent) := by
    simp [floatLiteral, floatText, magnitudeText, represents.abs_eq, notBelow,
      represents.magnitude_eq, represents.isNegative_eq]
  rw [written]
  exact isDigits_positional_shortest large normal

end Double

end Decimal
end TemplatedMarkup
