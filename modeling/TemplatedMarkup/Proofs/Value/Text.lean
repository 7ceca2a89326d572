import TemplatedMarkup.Proofs.Decimal.Notation
import TemplatedMarkup.Proofs.Text.Html
import TemplatedMarkup.Value.Text

/-!
# The characters of shown values

A number is shown without brackets of tags.  What opens a tag in the text of an item opens one in
the text of the list that the item is in.
-/

namespace TemplatedMarkup

/-! ## Numbers -/

namespace Decimal

/-- The characters that numbers are written with. -/
def isNumeral (character : Char) : Bool :=
  character.isDigit || ['-', '.', 'n', 'a', 'i', 'f'].contains character

theorem isNumeral_of_mem_toDigits
    {value : Nat}
    {character : Char}
    (among : character ∈ Nat.toDigits 10 value) :
    isNumeral character = true := by
  simp [isNumeral, (isDigits_toDigits value).digits character among]

theorem isNumeral_of_mem_integerText
    {value : Int}
    {character : Char}
    (among : character ∈ integerText value) :
    isNumeral character = true := by
  unfold integerText at among
  split at among
  · rcases List.mem_cons.mp among with rfl | inDigits
    · decide
    · exact isNumeral_of_mem_toDigits inDigits
  · exact isNumeral_of_mem_toDigits among

theorem isNumeral_of_mem_positional
    {decimal : Scientific}
    {character : Char}
    (among : character ∈ positional decimal) :
    isNumeral character = true := by
  by_cases whole : 0 ≤ decimal.exponent
  · simp [isNumeral, (positional_of_nonneg whole).digits character among]
  · obtain ⟨front, fraction, frontDigits, fractionDigits, -, written⟩ :=
      positional_of_neg (not_le.mp whole)
    have inParts : character ∈ front ∨ character = '.' ∨ character ∈ fraction := by
      rw [written] at among
      split at among
      · exact .inl among
      · simpa using among
    rcases inParts with inFront | rfl | inFraction
    · simp [isNumeral, frontDigits.digits character inFront]
    · decide
    · simp [isNumeral, fractionDigits character inFraction]

theorem isNumeral_of_mem_floatText
    {value : Float}
    {character : Char}
    (among : character ∈ floatText value) :
    isNumeral character = true := by
  have inMagnitude (digit : character ∈ magnitudeText (magnitude value)) :
      isNumeral character = true := by
    unfold magnitudeText at digit
    split at digit
    · exact List.all_eq_true.mp (by decide : "nan".toList.all isNumeral = true) character digit
    · exact List.all_eq_true.mp (by decide : "inf".toList.all isNumeral = true) character digit
    · exact isNumeral_of_mem_positional digit
  unfold floatText at among
  simp only at among
  split at among
  · rcases List.mem_cons.mp among with rfl | digit
    · decide
    · exact inMagnitude digit
  · exact inMagnitude among

theorem isNumeral_of_mem_floatLiteral
    {value : Float}
    {character : Char}
    (among : character ∈ floatLiteral value) :
    isNumeral character = true := by
  have inWhole (digit : character ∈ Nat.toDigits 10 (wholePart value) ++ ".0".toList) :
      isNumeral character = true := by
    rcases List.mem_append.mp digit with whole | fraction
    · exact isNumeral_of_mem_toDigits whole
    · exact List.all_eq_true.mp (by decide : ".0".toList.all isNumeral = true) character fraction
  unfold floatLiteral at among
  simp only at among
  split at among
  · split at among
    · rcases List.mem_cons.mp among with rfl | digit
      · decide
      · exact inWhole digit
    · exact inWhole among
  · exact isNumeral_of_mem_floatText among

end Decimal

/-! ## Literals and lists -/

/-- Quoting keeps every character but the escaped ends of lines and tabs. -/
theorem Text.mem_quoted
    {text : List Char}
    {character : Char}
    (visible : character ≠ '\n' ∧ character ≠ '\t')
    (among : character ∈ text) :
    character ∈ quoted text := by
  have inForm (mark : Char) : character ∈ quoteCharacter mark character := by
    unfold quoteCharacter
    rw [if_neg visible.1, if_neg visible.2]
    split
    · rename_i isBackslash
      simp [isBackslash]
    · split <;> simp
  have inside := List.mem_flatMap.mpr ⟨character, among, inForm (quoteMark text)⟩
  simp [quoted, inside]

namespace Value

/-- What opens a tag in the text of a value opens one in its literal. -/
theorem mem_literalText_of_mem_display
    {value : Value}
    (opens : '<' ∈ value.display.toList) :
    '<' ∈ value.literalText := by
  cases value with
  | str text =>
      rw [literalText]
      exact Text.mem_quoted (by decide) opens
  | _ => simpa [display, literal] using opens

/-- What opens a tag in the text of an item opens one in the text of its list. -/
theorem mem_display_list
    {items : List Value}
    {item : Value}
    (among : item ∈ items)
    (opens : '<' ∈ item.display.toList) :
    '<' ∈ (Value.list items).display.toList := by
  have joined : '<' ∈ ", ".toList.intercalate (items.map literalText) :=
    (Text.infix_intercalate_of_mem (List.mem_map_of_mem among)).subset
      (mem_literalText_of_mem_display opens)
  rw [display, literal, String.toList_ofList, literalText]
  · exact List.mem_append_left _ (List.mem_cons_of_mem _ joined)
  · simp

/-- A constant that is no string is shown as it is written. -/
theorem toList_display_ofLiteral
    {constant : Expression.Literal}
    (noString : ∀ text, constant ≠ .str text) :
    (ofLiteral constant).display.toList = constant.text := by
  cases constant with
  | str text => exact absurd rfl (noString text)
  | _ => simp [ofLiteral, display, literal, literalText]

/-- Only a constant that is a string may open a tag. -/
theorem mem_of_mem_display_ofLiteral
    {constant : Expression.Literal}
    (opens : '<' ∈ (ofLiteral constant).display.toList) :
    ∃ text, constant = .str text ∧ '<' ∈ text.toList := by
  have noNumeral {text : List Char}
      (numerals : ∀ character ∈ text, Decimal.isNumeral character = true) : '<' ∉ text :=
    fun among => absurd (numerals '<' among) (by decide)
  cases constant with
  | str text => exact ⟨text, rfl, opens⟩
  | none =>
      rw [toList_display_ofLiteral (by simp)] at opens
      exact absurd opens (by decide)
  | bool value =>
      rw [toList_display_ofLiteral (by simp)] at opens
      cases value <;> exact absurd opens (by decide)
  | int value =>
      rw [toList_display_ofLiteral (by simp)] at opens
      exact absurd opens (noNumeral fun _ => Decimal.isNumeral_of_mem_integerText)
  | float value =>
      rw [toList_display_ofLiteral (by simp)] at opens
      exact absurd opens (noNumeral fun _ => Decimal.isNumeral_of_mem_floatLiteral)

end Value
end TemplatedMarkup
