import Mathlib
import TemplatedMarkup.Decimal.Notation

/-!
# The bits of a double

A double without a sign is an integer times a power of two, and its bits are these two numbers
side by side.  This module follows the operations that the notation of doubles is made of through
the bits: the magnitude, the sign, the comparison with the bound of the notation, and the integer
part.
-/

namespace TemplatedMarkup
namespace Decimal

open Float.Model Float.Model.UnpackedFloat

/-- The significands and exponents that doubles have. -/
structure IsCanonical
    (significand : Nat)
    (exponent : Int) : Prop where
  /-- No exponent is below that of the subnormal doubles. -/
  lowest : -1074 ≤ exponent
  /-- The significand has at most 53 bits. -/
  small : significand < 2 * binadeSize
  /-- The significand has 53 bits unless the double is subnormal. -/
  normal : -1074 < exponent → binadeSize ≤ significand

/-- The bits of a significand and an exponent. -/
def bitsOf
    (significand : Nat)
    (exponent : Int) : Nat :=
  significand + (exponent + 1074).toNat * binadeSize

/-- All bits without a sign are those of a significand and an exponent. -/
theorem exists_bitsOf (bits : Nat) :
    ∃ significand exponent, IsCanonical significand exponent ∧
      bits = bitsOf significand exponent := by
  by_cases subnormal : bits < binadeSize
  · refine ⟨bits, -1074, ⟨by omega, by omega, by omega⟩, ?_⟩
    simp [bitsOf]
  · have divided := Nat.div_add_mod bits binadeSize
    have bounded := Nat.mod_lt bits (show 0 < binadeSize by decide)
    have positive : 0 < bits / binadeSize := Nat.div_pos (by omega) (by decide)
    refine ⟨binadeSize + bits % binadeSize, (bits / binadeSize : Nat) - 1075,
      ⟨by omega, by omega, by omega⟩, ?_⟩
    obtain ⟨biased, isSucc⟩ : ∃ biased, bits / binadeSize = biased + 1 :=
      ⟨bits / binadeSize - 1, by omega⟩
    have shifted : (((bits / binadeSize : Nat) : Int) - 1075 + 1074).toNat = biased := by omega
    rw [bitsOf, shifted]
    rw [isSucc, Nat.mul_add, Nat.mul_one, Nat.mul_comm] at divided
    omega

/-! ## Unpacking and packing -/

theorem toNat_unpackMantissa (word : BitVec 64) :
    (@unpackMantissa Format.binary64 word).toNat = word.toNat % binadeSize := by
  simp [unpackMantissa, binadeSize]

theorem toNat_unpackExponent (word : BitVec 64) :
    (@unpackExponent Format.binary64 word).toNat = word.toNat / binadeSize % 2048 := by
  simp [unpackExponent, binadeSize, Nat.shiftRight_eq_div_pow]

theorem toNat_unpackSign (word : BitVec 64) :
    (@unpackSign Format.binary64 word).toNat = word.toNat / signBit % 2 := by
  simp [unpackSign, signBit, Nat.shiftRight_eq_div_pow]

section Canonical

variable
  {significand : Nat}
  {exponent : Int}

/-- The fields of the bits of a subnormal double, which has no implicit bit. -/
theorem IsCanonical.fields_of_lt
    (canonical : IsCanonical significand exponent)
    (subnormal : significand < binadeSize) :
    exponent = -1074 ∧ bitsOf significand exponent = significand := by
  have lowest := canonical.lowest
  have normal := canonical.normal
  obtain rfl : exponent = -1074 := by omega
  exact ⟨rfl, by simp [bitsOf]⟩

/-- The fields of the bits of any other double, the implicit bit left out. -/
theorem IsCanonical.fields_of_le
    (canonical : IsCanonical significand exponent)
    (normal : binadeSize ≤ significand) :
    bitsOf significand exponent % binadeSize = significand - binadeSize ∧
      bitsOf significand exponent / binadeSize = (exponent + 1075).toNat := by
  have small := canonical.small
  have lowest := canonical.lowest
  have split : bitsOf significand exponent =
      (significand - binadeSize) + (exponent + 1075).toNat * binadeSize := by
    have shifted : (exponent + 1075).toNat = (exponent + 1074).toNat + 1 := by omega
    rw [bitsOf, shifted, Nat.succ_mul]
    omega
  have below : significand - binadeSize < binadeSize := by omega
  rw [split, Nat.add_mul_mod_self_right, Nat.add_mul_div_right _ _ (by decide),
    Nat.mod_eq_of_lt below, Nat.div_eq_of_lt below, Nat.zero_add]
  exact ⟨rfl, rfl⟩

theorem toNat_toBitVec_ofNat
    {bits : Nat}
    (bounded : bits ≤ infinityBits) :
    (UInt64.ofNat bits).toBitVec.toNat = bits := by
  rw [UInt64.toNat_toBitVec, UInt64.toNat_ofNat']
  exact Nat.mod_eq_of_lt (Nat.lt_of_le_of_lt bounded (by decide))

/-- The bits of a finite double that is not zero are unpacked to its two numbers. -/
theorem unpack_bitsOf
    (canonical : IsCanonical significand exponent)
    (positive : 0 < significand)
    (finite : bitsOf significand exponent < infinityBits) :
    UnpackedFloat.unpack Format.binary64
        (UInt64.ofNat (bitsOf significand exponent)).toBitVec =
      .finite .positive significand exponent positive := by
  have word := toNat_toBitVec_ofNat (Nat.le_of_lt finite)
  generalize (UInt64.ofNat (bitsOf significand exponent)).toBitVec = bits at word
  have sign : @unpackSign Format.binary64 bits = 0#1 := by
    apply BitVec.eq_of_toNat_eq
    rw [toNat_unpackSign, word, Nat.div_eq_of_lt (Nat.lt_trans finite (by decide))]
    rfl
  have mantissa := toNat_unpackMantissa bits
  have biased := toNat_unpackExponent bits
  rw [word] at mantissa biased
  have belowLast : bitsOf significand exponent / binadeSize < 2047 :=
    Nat.div_lt_of_lt_mul (by rw [Nat.mul_comm]; exact finite)
  rw [Nat.mod_eq_of_lt (by omega)] at biased
  have notLast : @unpackExponent Format.binary64 bits ≠ 2047#11 := by
    intro isLast
    rw [isLast] at biased
    simp at biased
    omega
  have bias : Format.binary64.exponentBias = 1023 := rfl
  have positiveSign : Sign.ofBitVec 0#1 = .positive := rfl
  by_cases subnormal : significand < binadeSize
  · obtain ⟨rfl, same⟩ := canonical.fields_of_lt subnormal
    rw [same, Nat.mod_eq_of_lt subnormal] at mantissa
    rw [same, Nat.div_eq_of_lt subnormal] at biased
    have first : @unpackExponent Format.binary64 bits = 0#_ := BitVec.eq_of_toNat_eq biased
    have notZero : @unpackMantissa Format.binary64 bits ≠ 0#_ := by
      intro isZero
      rw [isZero] at mantissa
      simp at mantissa
      omega
    unfold UnpackedFloat.unpack
    simp [first, notZero, sign, mantissa, bias, positiveSign]
  · have normal : binadeSize ≤ significand := by omega
    obtain ⟨low, high⟩ := canonical.fields_of_le normal
    have small := canonical.small
    have lowest := canonical.lowest
    rw [low] at mantissa
    rw [high] at biased
    have notFirst : @unpackExponent Format.binary64 bits ≠ 0#_ := by
      intro isFirst
      rw [isFirst] at biased
      simp at biased
      omega
    have implicit : (1#1 ++ @unpackMantissa Format.binary64 bits).toNat = significand := by
      rw [BitVec.toNat_append, mantissa, ← Nat.shiftLeft_add_eq_or_of_lt (by
        change significand - binadeSize < binadeSize
        omega)]
      change binadeSize + (significand - binadeSize) = significand
      omega
    have unbiased : max (exponent + 1075) 0 - 1075 = exponent := by omega
    unfold UnpackedFloat.unpack
    simp [notLast, notFirst, sign, implicit, biased, bias, positiveSign, unbiased]

theorem toNat_packComponents
    (biased : BitVec 11)
    (mantissa : BitVec 52) :
    (packComponents Format.binary64 .positive biased mantissa).toNat =
      mantissa.toNat + biased.toNat * binadeSize := by
  have packed : packComponents Format.binary64 .positive biased mantissa =
      0#1 ++ biased ++ mantissa := rfl
  rw [packed, BitVec.toNat_append, BitVec.toNat_append,
    ← Nat.shiftLeft_add_eq_or_of_lt mantissa.isLt]
  simp [Nat.shiftLeft_eq, binadeSize, Nat.add_comm]

/-- The two numbers of a finite double that is not zero are packed to its bits. -/
theorem pack_bitsOf
    (canonical : IsCanonical significand exponent)
    (positive : 0 < significand)
    (finite : bitsOf significand exponent < infinityBits) :
    UnpackedFloat.pack Format.binary64 (.finite .positive significand exponent positive) =
      (UInt64.ofNat (bitsOf significand exponent)).toBitVec := by
  have bias : Format.binary64.exponentBias = 1023 := rfl
  have lowest := canonical.lowest
  have small := canonical.small
  have highest : (exponent + 1075).toNat < 2047 := by
    by_cases subnormal : significand < binadeSize
    · obtain ⟨rfl, -⟩ := canonical.fields_of_lt subnormal
      decide
    · rw [← (canonical.fields_of_le (by omega)).2]
      exact Nat.div_lt_of_lt_mul (by rw [Nat.mul_comm]; exact finite)
  apply BitVec.eq_of_toNat_eq
  rw [toNat_toBitVec_ofNat (Nat.le_of_lt finite)]
  unfold UnpackedFloat.pack
  have mantissaBits : Format.binary64.mantissaBits = 53 := rfl
  have biased : (exponent + (Format.binary64.exponentBias : Int) +
      (Format.binary64.mantissaBitsWithoutImplicit : Int)).toNat = (exponent + 1075).toNat := by
    rw [bias]
    congr 1
    change exponent + 1023 + 52 = exponent + 1075
    omega
  simp only [biased, mantissaBits]
  rw [if_neg (by change ¬ 2048 ≤ _; omega)]
  by_cases subnormal : significand < binadeSize
  · obtain ⟨rfl, same⟩ := canonical.fields_of_lt subnormal
    have short : significand.log2 + 1 ≠ 53 := by
      have logarithm := (Nat.log2_lt (Nat.ne_of_gt positive)).mpr
        (show significand < 2 ^ 52 from subnormal)
      omega
    rw [if_neg short]
    refine (toNat_packComponents 0#11 (BitVec.ofNat 52 significand)).trans ?_
    have kept : significand % 2 ^ 52 = significand := Nat.mod_eq_of_lt subnormal
    rw [same, BitVec.toNat_ofNat, kept]
    simp
  · have normal : binadeSize ≤ significand := by omega
    have long : significand.log2 + 1 = 53 := by
      have lower := (Nat.le_log2 (Nat.ne_of_gt positive)).mpr
        (show 2 ^ 52 ≤ significand from normal)
      have upper := (Nat.log2_lt (Nat.ne_of_gt positive)).mpr
        (show significand < 2 ^ 53 from small)
      omega
    rw [if_pos long]
    refine (toNat_packComponents (BitVec.ofNat 11 (exponent + 1075).toNat)
      (BitVec.ofNat 52 significand)).trans ?_
    have cut : significand % 2 ^ 52 = significand - binadeSize := by
      change significand % binadeSize = significand - binadeSize
      rw [Nat.mod_eq_sub_mod normal, Nat.mod_eq_of_lt (by omega)]
    have shifted : (exponent + 1075).toNat = (exponent + 1074).toNat + 1 := by omega
    rw [BitVec.toNat_ofNat, BitVec.toNat_ofNat, cut, Nat.mod_eq_of_lt (by omega), bitsOf, shifted,
      Nat.succ_mul]
    omega

/-! ## Doubles without a sign -/

/-- The significand zero belongs to the double zero only. -/
theorem IsCanonical.eq_of_eq_zero
    (canonical : IsCanonical 0 exponent) :
    exponent = -1074 := by
  have lowest := canonical.lowest
  have normal := canonical.normal
  by_cases above : -1074 < exponent
  · exact absurd (normal above) (by decide)
  · omega

/-- The bits of a double without a sign are the ones it is made of. -/
theorem toBits_withSign
    {bits : Nat}
    (bounded : bits ≤ infinityBits) :
    (withSign false bits).toBits = UInt64.ofNat bits := by
  rcases Nat.lt_or_eq_of_le bounded with finite | rfl
  · obtain ⟨significand, exponent, canonical, rfl⟩ := exists_bitsOf bits
    rcases Nat.eq_zero_or_pos significand with rfl | positive
    · obtain rfl := canonical.eq_of_eq_zero
      rfl
    · have unpacked := unpack_bitsOf canonical positive finite
      have packed := pack_bitsOf canonical positive finite
      change UInt64.ofBitVec (UnpackedFloat.pack Format.binary64 (UnpackedFloat.unpack
        Format.binary64 (UInt64.ofNat (bitsOf significand exponent)).toBitVec)) = _
      rw [unpacked, packed]
  · rfl

theorem toNat_toBits_withSign
    {bits : Nat}
    (bounded : bits ≤ infinityBits) :
    (withSign false bits).toBits.toNat = bits := by
  rw [toBits_withSign bounded]
  exact toNat_toBitVec_ofNat bounded

/-- Unpacking a double without a sign gives its two numbers. -/
theorem unpack_withSign
    (canonical : IsCanonical significand exponent)
    (positive : 0 < significand)
    (finite : bitsOf significand exponent < infinityBits) :
    (withSign false (bitsOf significand exponent)).toModel.unpack =
      .finite .positive significand exponent positive := by
  have bits := toBits_withSign (Nat.le_of_lt finite)
  change UnpackedFloat.unpack Format.binary64
    (withSign false (bitsOf significand exponent)).toBits.toBitVec = _
  rw [bits, unpack_bitsOf canonical positive finite]

/-- The magnitude of a finite double is made of its two numbers. -/
theorem magnitude_withSign
    (canonical : IsCanonical significand exponent)
    (finite : bitsOf significand exponent < infinityBits) :
    magnitude (withSign false (bitsOf significand exponent)) = .finite significand exponent := by
  have lowest := canonical.lowest
  unfold magnitude
  rw [toNat_toBits_withSign (Nat.le_of_lt finite)]
  by_cases subnormal : significand < binadeSize
  · obtain ⟨rfl, same⟩ := canonical.fields_of_lt subnormal
    simp only [same, Nat.div_eq_of_lt subnormal, Nat.mod_eq_of_lt subnormal]
    rfl
  · obtain ⟨low, high⟩ := canonical.fields_of_le (by omega)
    have highest : bitsOf significand exponent / binadeSize < 2047 :=
      Nat.div_lt_of_lt_mul (by rw [Nat.mul_comm]; exact finite)
    simp only
    rw [low, high, Nat.mod_eq_of_lt (by omega), if_neg (by omega), if_neg (by omega)]
    have whole : binadeSize + (significand - binadeSize) = significand := by omega
    have unbiased : ((exponent + 1075).toNat : Int) - 1075 = exponent := by omega
    rw [whole, unbiased]

theorem isNegative_withSign
    {bits : Nat}
    (bounded : bits ≤ infinityBits) :
    isNegative (withSign false bits) = false := by
  have shifted : (withSign false bits).toBits >>> 63 = 0 := by
    apply UInt64.toNat_inj.mp
    rw [UInt64.toNat_shiftRight, toNat_toBits_withSign bounded]
    change bits >>> 63 = 0
    rw [Nat.shiftRight_eq_div_pow]
    exact Nat.div_eq_of_lt (Nat.lt_of_le_of_lt bounded (by decide))
  unfold isNegative
  rw [shifted]
  rfl

/-- Doubles with the same bits are the same. -/
theorem eq_of_toBits_eq
    {left right : Float}
    (same : left.toBits = right.toBits) :
    left = right := by
  obtain ⟨⟨leftBits, leftValid⟩⟩ := left
  obtain ⟨⟨rightBits, rightValid⟩⟩ := right
  change leftBits = rightBits at same
  subst same
  rfl

/-- A double without a sign is its own absolute value. -/
theorem abs_withSign
    {bits : Nat}
    (bounded : bits ≤ infinityBits) :
    (withSign false bits).abs = withSign false bits := by
  rcases Nat.lt_or_eq_of_le bounded with finite | rfl
  · obtain ⟨significand, exponent, canonical, rfl⟩ := exists_bitsOf bits
    rcases Nat.eq_zero_or_pos significand with rfl | positive
    · obtain rfl := canonical.eq_of_eq_zero
      rfl
    · apply eq_of_toBits_eq
      rw [toBits_withSign bounded]
      change UInt64.ofBitVec (UnpackedFloat.pack Format.binary64
        (withSign false (bitsOf significand exponent)).toModel.unpack.abs) = _
      rw [unpack_withSign canonical positive finite]
      change UInt64.ofBitVec (UnpackedFloat.pack Format.binary64
        (.finite .positive significand exponent positive)) = _
      rw [pack_bitsOf canonical positive finite]
  · rfl

/-- The bound of the notation unpacked. -/
theorem unpack_fractionBound :
    fractionBound.toModel.unpack = .finite .positive 5000000000000000 1 (by decide) := by
  rfl

/-- A finite double is below the bound of the notation as its two numbers are. -/
theorem withSign_lt_fractionBound_iff
    (canonical : IsCanonical significand exponent)
    (positive : 0 < significand)
    (finite : bitsOf significand exponent < infinityBits) :
    withSign false (bitsOf significand exponent) < fractionBound ↔
      exponent < 1 ∨ exponent = 1 ∧ significand < 5000000000000000 := by
  have unpacked := unpack_withSign canonical positive finite
  change decide (UnpackedFloat.lt (withSign false (bitsOf significand exponent)).toModel.unpack
    fractionBound.toModel.unpack = true) = true ↔ _
  rw [unpacked, unpack_fractionBound, decide_eq_true_iff]
  change (some ((compare exponent 1).then (compare significand 5000000000000000)) ==
    some Ordering.lt) = true ↔ _
  rw [beq_iff_eq, Option.some.injEq, Ordering.then_eq_lt, Int.compare_eq_lt, Int.compare_eq_eq,
    Nat.compare_eq_lt]

/-- The double infinity is not below the bound of the notation. -/
theorem not_infinity_lt_fractionBound :
    ¬ withSign false infinityBits < fractionBound := by
  decide

/-- The double zero is below the bound of the notation. -/
theorem zero_lt_fractionBound : withSign false 0 < fractionBound := by
  decide

end Canonical

end Decimal
end TemplatedMarkup
