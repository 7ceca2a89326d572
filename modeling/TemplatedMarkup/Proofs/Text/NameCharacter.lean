import Mathlib
import TemplatedMarkup.Text.Character

/-!
# The characters of names

Below 128 the characters of a name are the letters and digits of ASCII and the underscore.  So a
name holds no punctuation, no quote, no bracket and no blank.
-/

namespace TemplatedMarkup
namespace Text

/-- A letter is a letter of ASCII or lies beyond ASCII. -/
theorem isAlpha_or_le_of_isLetter
    {character : Char}
    (letter : isLetter character = true) :
    character.isAlpha = true ∨ 128 ≤ character.toNat := by
  simp only [isLetter, Bool.or_eq_true] at letter
  rcases letter with ascii | beyond
  · exact .inl ascii
  · exact .inr (le_of_inRanges (by decide +kernel) beyond)

/-- A number is a digit of ASCII or lies beyond ASCII. -/
theorem isDigit_or_le_of_isNumber
    {character : Char}
    (number : isNumber character = true) :
    character.isDigit = true ∨ 128 ≤ character.toNat := by
  simp only [isNumber, Bool.or_eq_true] at number
  rcases number with ascii | beyond
  · exact .inl ascii
  · exact .inr (le_of_inRanges (by decide +kernel) beyond)

/-- A character of a name is a letter, a digit or the underscore, or lies beyond ASCII. -/
theorem isAlphanum_or_le_of_isNamePart
    {character : Char}
    (part : isNamePart character = true) :
    character.isAlphanum = true ∨ character = '_' ∨ 128 ≤ character.toNat := by
  simp only [isNamePart, Bool.or_eq_true, beq_iff_eq] at part
  rcases part with (letter | number) | underscore
  · rcases isAlpha_or_le_of_isLetter letter with ascii | beyond
    · exact .inl (by simp [Char.isAlphanum, ascii])
    · exact .inr (.inr beyond)
  · rcases isDigit_or_le_of_isNumber number with ascii | beyond
    · exact .inl (by simp [Char.isAlphanum, ascii])
    · exact .inr (.inr beyond)
  · exact .inr (.inl underscore)

/-- A character that starts a name can stand inside one. -/
theorem isNamePart_of_isNameStart
    {character : Char}
    (start : isNameStart character = true) :
    isNamePart character = true := by
  simp only [isNameStart, isNamePart, Bool.or_eq_true] at start ⊢
  rcases start with letter | underscore
  · exact .inl (.inl letter)
  · exact .inr underscore

/-- The letters of ASCII start behind its digits. -/
theorem le_of_isAlpha
    {character : Char}
    (alpha : character.isAlpha = true) :
    65 ≤ character.toNat := by
  simp only [Char.isAlpha, Char.isUpper, Char.isLower, Bool.or_eq_true, Bool.and_eq_true,
    decide_eq_true_eq, UInt32.le_iff_toNat_le, ge_iff_le] at alpha
  rcases alpha with ⟨least, _⟩ | ⟨least, _⟩
  · exact least
  · exact Nat.le_trans (by decide) least

/-- A letter is no digit of ASCII. -/
theorem isDigit_eq_false_of_isLetter
    {character : Char}
    (letter : isLetter character = true) :
    character.isDigit = false := by
  cases digit : character.isDigit with
  | false => rfl
  | true =>
      have bounds : 48 ≤ character.toNat ∧ character.toNat ≤ 57 :=
        Char.isDigit_iff_toNat.mp digit
      rcases isAlpha_or_le_of_isLetter letter with ascii | beyond
      · have least := le_of_isAlpha ascii
        omega
      · omega

/-- A digit of ASCII starts no name. -/
theorem isDigit_eq_false_of_isNameStart
    {character : Char}
    (start : isNameStart character = true) :
    character.isDigit = false := by
  simp only [isNameStart, Bool.or_eq_true, beq_iff_eq] at start
  rcases start with letter | rfl
  · exact isDigit_eq_false_of_isLetter letter
  · rfl

/-- A digit of ASCII can stand inside a name. -/
theorem isNamePart_of_isDigit
    {character : Char}
    (digit : character.isDigit = true) :
    isNamePart character = true := by
  simp [isNamePart, isNumber, digit]

/-- A character of a name differs from every other character of ASCII. -/
theorem ne_of_isNamePart
    {character : Char}
    (part : isNamePart character = true)
    (other : Char)
    (ascii : other.toNat < 128)
    (excluded : (other.isAlphanum || other == '_') = false) :
    character ≠ other := by
  rintro rfl
  simp only [Bool.or_eq_false_iff, beq_eq_false_iff_ne] at excluded
  rcases isAlphanum_or_le_of_isNamePart part with ascii' | underscore | beyond
  · simp [excluded.1] at ascii'
  · exact excluded.2 underscore
  · omega

/-- The code points of the blanks. -/
def blankCodes : List Nat :=
  blankRanges.flatMap fun range => List.range' range.first (range.last + 1 - range.first)

/-- A code point in a list of ranges is one of the code points that the ranges span. -/
theorem mem_of_inRanges
    {ranges : List CodeRange}
    {code : Nat}
    (inside : inRanges ranges code = true) :
    code ∈ ranges.flatMap fun range =>
      List.range' range.first (range.last + 1 - range.first) := by
  induction ranges with
  | nil => simp [inRanges] at inside
  | cons range ranges inductionHypothesis =>
      unfold inRanges at inside
      simp only [List.flatMap_cons, List.mem_append, List.mem_range'_1]
      split at inside
      · contradiction
      · split at inside
        · left
          omega
        · exact .inr (inductionHypothesis inside)

/-- A character is no blank when its class holds none of the blanks. -/
theorem isBlank_eq_false_of_apart
    {inClass : Char → Bool}
    (apart : blankCodes.all (fun code => !inClass (Char.ofNat code)) = true)
    {character : Char}
    (member : inClass character = true) :
    isBlank character = false := by
  cases blank : isBlank character with
  | false => rfl
  | true =>
      have listed : character.toNat ∈ blankCodes := mem_of_inRanges blank
      have excluded := List.all_eq_true.mp apart _ listed
      simp [member] at excluded

/-- A character of a name is no blank. -/
theorem isBlank_eq_false_of_isNamePart
    {character : Char}
    (part : isNamePart character = true) :
    isBlank character = false :=
  isBlank_eq_false_of_apart (by decide +kernel) part

end Text
end TemplatedMarkup
