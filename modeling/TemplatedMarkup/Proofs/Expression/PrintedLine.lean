import TemplatedMarkup.Proofs.Expression.Spelling

/-!
# The text of an expression is a line

An expression that a source can write is written on one line, which ends with a bracket, a quote
or a character of a name.
-/

namespace TemplatedMarkup
namespace Expression

open Text

/-- Characters that may end the text of an expression. -/
def EndsText (character : Char) : Prop :=
  isNamePart character = true ∨ character ∈ [')', ']', '}', '\'', '"']

/-- What ends the text of an expression is no blank. -/
theorem EndsText.noBlank
    {character : Char}
    (ends : EndsText character) :
    isBlank character = false := by
  rcases ends with part | closing
  · exact isBlank_eq_false_of_isNamePart part
  · simp only [List.mem_cons, List.not_mem_nil, or_false] at closing
    rcases closing with rfl | rfl | rfl | rfl | rfl <;> rfl

/-- What ends the text of an expression is neither a backslash nor a colon. -/
theorem EndsText.ne
    {character : Char}
    (ends : EndsText character) :
    character ≠ '\\' ∧ character ≠ ':' := by
  rcases ends with part | closing
  · exact ⟨ne_of_isNamePart part '\\' (by decide) rfl, ne_of_isNamePart part ':' (by decide) rfl⟩
  · exact ⟨ne_of_mem_of_not_mem closing (by decide), ne_of_mem_of_not_mem closing (by decide)⟩

/-- A text on one line with an end that an expression has. -/
structure IsPrinted (text : List Char) : Prop where
  /-- There is one line only. -/
  oneLine : '\n' ∉ text
  /-- The last character is an end. -/
  last : ∃ character ∈ text.getLast?, EndsText character

/-- A word consists of characters of names. -/
theorem IsWord.isNamePart
    {word : List Char}
    (isWord : IsWord word) :
    ∀ character ∈ word, Text.isNamePart character = true := by
  cases word with
  | nil => exact isWord.elim
  | cons first rest =>
      exact List.forall_mem_cons.mpr ⟨isNamePart_of_isNameStart isWord.1, isWord.2⟩

/-- Characters of names have no line feed among them. -/
theorem not_mem_of_isNamePart
    {text : List Char}
    (parts : ∀ character ∈ text, isNamePart character = true) :
    '\n' ∉ text :=
  fun among => absurd (parts '\n' among) (by decide)

/-- A word is printed as it is. -/
theorem IsWord.isPrinted
    {word : List Char}
    (isWord : IsWord word) :
    IsPrinted word := by
  have nonempty : word ≠ [] := by
    rintro rfl
    exact isWord.elim
  refine ⟨not_mem_of_isNamePart isWord.isNamePart, _,
    List.getLast?_eq_some_getLast nonempty, ?_⟩
  exact .inl (isWord.isNamePart _ (List.getLast_mem _))

/-- Digits are printed as they are. -/
theorem isPrinted_of_isDigits
    {digits : List Char}
    (isDigits : Decimal.IsDigits digits) :
    IsPrinted digits := by
  have parts : ∀ character ∈ digits, isNamePart character = true := fun character among =>
    isNamePart_of_isDigit (isDigits.digits character among)
  refine ⟨not_mem_of_isNamePart parts, _,
    List.getLast?_eq_some_getLast isDigits.nonempty, ?_⟩
  exact .inl (parts _ (List.getLast_mem _))

/-- What follows a text on one line decides where the whole ends. -/
theorem IsPrinted.append
    {front text : List Char}
    (printed : IsPrinted text)
    (oneLine : '\n' ∉ front) :
    IsPrinted (front ++ text) := by
  obtain ⟨character, isLast, ends⟩ := printed.last
  refine ⟨by simp [oneLine, printed.oneLine], character, ?_, ends⟩
  rw [Option.mem_def] at isLast ⊢
  rw [List.getLast?_append, isLast]
  rfl

/-- The character that closes a text ends it. -/
theorem isPrinted_append_singleton
    {front : List Char}
    {closing : Char}
    (oneLine : '\n' ∉ front)
    (among : closing ∈ [')', ']', '}', '\'', '"']) :
    IsPrinted (front ++ [closing]) := by
  have single : IsPrinted [closing] := by
    have noFeed : closing ≠ '\n' := ne_of_mem_of_not_mem among (by decide)
    exact ⟨by simpa using noFeed.symm, closing, rfl, .inr among⟩
  exact single.append oneLine

/-- A quoted text is on one line, as its line feeds are escaped. -/
theorem isPrinted_quoted (text : List Char) : IsPrinted (quoted text) := by
  have isQuote : quoteMark text = '\'' ∨ quoteMark text = '"' := by
    unfold quoteMark
    split
    · exact .inr rfl
    · exact .inl rfl
  have escapes (mark : Char) (noFeed : '\n' ≠ mark) :
      '\n' ∉ text.flatMap (quoteCharacter mark) := by
    simp only [List.mem_flatMap, not_exists, not_and]
    intro character _
    unfold quoteCharacter
    split
    · decide
    · split
      · decide
      · split
        · decide
        · rename_i noFeed' _
          split <;> simp [Ne.symm noFeed']
  unfold quoted
  rcases isQuote with isApostrophe | isDouble
  · rw [isApostrophe]
    exact isPrinted_append_singleton (by simpa using escapes '\'' (by decide)) (by decide)
  · rw [isDouble]
    exact isPrinted_append_singleton (by simpa using escapes '"' (by decide)) (by decide)

/-- The literal of a double is on one line. -/
theorem isPrinted_floatLiteral
    {value : Float}
    (writable : (Literal.float value).Writable) :
    IsPrinted (Decimal.floatLiteral value) := by
  obtain ⟨bits, bounded, isValue⟩ := writable
  rcases Nat.lt_or_eq_of_le bounded with finite | rfl
  · obtain ⟨significand, exponent, canonical, rfl⟩ := Decimal.exists_bitsOf bits
    have represents : Decimal.Represents value significand exponent := ⟨canonical, finite, isValue⟩
    by_cases below : value < Decimal.fractionBound
    · obtain ⟨whole, fraction, wholeDigits, fractionDigits, written, -⟩ :=
        represents.floatLiteral_of_lt below
      have point : '\n' ∉ whole ++ ['.'] := by
        simp [(isPrinted_of_isDigits wholeDigits).oneLine]
      have printed := (isPrinted_of_isDigits fractionDigits).append point
      rwa [written, List.append_cons]
    · exact isPrinted_of_isDigits (represents.floatLiteral_of_not_lt below)
  · have written : Decimal.floatLiteral value = "inf".toList := by
      subst isValue
      decide
    rw [written]
    exact ⟨by decide, 'f', rfl, .inl rfl⟩

theorem Literal.Writable.isPrinted
    {value : Literal}
    (writable : value.Writable) :
    IsPrinted value.text := by
  cases value with
  | none => exact ⟨by decide, 'e', rfl, .inl rfl⟩
  | bool value =>
      cases value with
      | true => exact ⟨by decide, 'e', rfl, .inl rfl⟩
      | false => exact ⟨by decide, 'e', rfl, .inl rfl⟩
  | int value =>
      have nonnegative : ¬ value.toInt < 0 := Int.not_lt.mpr writable
      have written : (Literal.int value).text = Nat.toDigits 10 value.toInt.natAbs := by
        simp [Literal.text, Decimal.integerText, nonnegative]
      rw [written]
      exact isPrinted_of_isDigits (Decimal.isDigits_toDigits _)
  | float value => exact isPrinted_floatLiteral writable
  | str text => exact isPrinted_quoted _

namespace Expr

theorem oneLine_itemsText
    {items : List Expr}
    (oneLine : ∀ item ∈ items, '\n' ∉ item.text) :
    '\n' ∉ itemsText items := by
  induction items with
  | nil => simp [itemsText]
  | cons item items inductionHypothesis =>
      have first := oneLine item (by simp)
      have others := inductionHypothesis fun other among => oneLine other (by simp [among])
      cases items with
      | nil => simpa [itemsText] using first
      | cons second items => simp [itemsText, first, others]

theorem oneLine_entriesText
    {entries : List (Expr × Expr)}
    (keyLine : ∀ entry ∈ entries, '\n' ∉ entry.1.text)
    (valueLine : ∀ entry ∈ entries, '\n' ∉ entry.2.text) :
    '\n' ∉ entriesText entries := by
  induction entries with
  | nil => simp [entriesText]
  | cons entry entries inductionHypothesis =>
      have key := keyLine entry (by simp)
      have value := valueLine entry (by simp)
      have others := inductionHypothesis (fun other among => keyLine other (by simp [among]))
        fun other among => valueLine other (by simp [among])
      cases entries with
      | nil => simp [entriesText, key, value]
      | cons second entries => simp [entriesText, key, value, others]

theorem oneLine_linksText
    {links : List (Comparison × Expr)}
    (oneLine : ∀ link ∈ links, '\n' ∉ link.2.text) :
    '\n' ∉ linksText links := by
  induction links with
  | nil => simp [linksText]
  | cons link links inductionHypothesis =>
      have operand := oneLine link (by simp)
      have others := inductionHypothesis fun other among => oneLine other (by simp [among])
      have operator : '\n' ∉ link.1.text := by cases link.1 <;> decide
      simp [linksText, operator, operand, others]

theorem oneLine_boundText
    {bound : Option Expr}
    (oneLine : ∀ present ∈ bound, '\n' ∉ present.text) :
    '\n' ∉ boundText bound ∧ '\n' ∉ stepText bound := by
  cases bound with
  | none => simp [boundText, stepText]
  | some present =>
      have own := oneLine present rfl
      simp [boundText, stepText, own]

/-- The text of a writable expression is on one line and ends as such a text does. -/
theorem Writable.isPrinted
    {expression : Expr}
    (writable : expression.Writable) :
    IsPrinted expression.text := by
  induction writable with
  | literal constant => exact constant.isPrinted
  | reference own => exact own.isWord.isPrinted
  | list _ printed =>
      have items := oneLine_itemsText fun item among => (printed item among).oneLine
      exact isPrinted_append_singleton (by simp [items]) (by decide)
  | dict _ _ keys values =>
      have entries := oneLine_entriesText (fun entry among => (keys entry among).oneLine)
        fun entry among => (values entry among).oneLine
      exact isPrinted_append_singleton (by simp [entries]) (by decide)
  | @unary operator _ _ operand =>
      have sign : '\n' ∉ operator.text := by cases operator <;> decide
      exact isPrinted_append_singleton (by simp [sign, operand.oneLine]) (by decide)
  | @binary operator _ _ _ _ left right =>
      have sign : '\n' ∉ operator.text := by cases operator <;> decide
      exact isPrinted_append_singleton (by simp [sign, left.oneLine, right.oneLine]) (by decide)
  | comparison _ _ _ first printed =>
      have links := oneLine_linksText fun link among => (printed link among).oneLine
      exact isPrinted_append_singleton (by simp [first.oneLine, links]) (by decide)
  | conditional _ _ _ condition consequence alternative =>
      exact isPrinted_append_singleton
        (by simp [condition.oneLine, consequence.oneLine, alternative.oneLine]) (by decide)
  | @call name _ own _ printed =>
      have named := own.isWord.isPrinted.oneLine
      have arguments := oneLine_itemsText fun item among => (printed item among).oneLine
      exact isPrinted_append_singleton (by simp [named, arguments]) (by decide)
  | @method _ name _ _ isName _ receiver printed =>
      have named := isName.isWord.isPrinted.oneLine
      have arguments := oneLine_itemsText fun item among => (printed item among).oneLine
      exact isPrinted_append_singleton (by simp [receiver.oneLine, named, arguments]) (by decide)
  | index _ _ collection position =>
      exact isPrinted_append_singleton (by simp [collection.oneLine, position.oneLine])
        (by decide)
  | slice _ _ _ _ collection start stop step =>
      have startLine := oneLine_boundText fun bound among => (start bound among).oneLine
      have stopLine := oneLine_boundText fun bound among => (stop bound among).oneLine
      have stepLine := oneLine_boundText fun bound among => (step bound among).oneLine
      exact isPrinted_append_singleton
        (by simp [collection.oneLine, startLine.1, stopLine.1, stepLine.2]) (by decide)

end Expr
end Expression
end TemplatedMarkup
