import TemplatedMarkup.Expression.Lexer
import TemplatedMarkup.Proofs.Text.NameCharacter

/-!
# Lexing one piece at a time

The equations by which a source is cut into tokens from the left: a blank is dropped, and a
symbol, a word, an integer or a quoted text in front gives its token, provided that what follows
does not prolong it.
-/

namespace TemplatedMarkup
namespace Expression

open Text

/-! ## The equations of the lexer -/

/-- A source of blanks and comments has no tokens. -/
theorem lex_of_skipBlanks_nil
    {source : List Char}
    (skipped : skipBlanks false source = []) :
    lex source = .ok [] := by
  rw [lex]
  split
  · rfl
  · rename_i occurs
    rw [skipped] at occurs
    contradiction

/-- The first token of a source stands in front of those of what follows it. -/
theorem lex_of_scanToken
    {source rest remaining : List Char}
    {first : Char}
    {token : Token}
    (skipped : skipBlanks false source = first :: rest)
    (scanned : scanToken first rest = .ok (token, remaining)) :
    lex source = (lex remaining).map (token :: ·) := by
  rw [lex]
  split
  · rename_i occurs
    rw [skipped] at occurs
    contradiction
  · rename_i occurs
    rw [skipped] at occurs
    obtain ⟨rfl, rfl⟩ := List.cons.inj occurs
    split
    · rename_i fails
      rw [scanned] at fails
      contradiction
    · rename_i succeeds
      rw [scanned] at succeeds
      obtain ⟨rfl, rfl⟩ := Prod.mk.inj (Except.ok.inj succeeds)
      cases lex remaining <;> rfl

/-- A source whose first token is malformed is refused for that reason. -/
theorem lex_of_scanToken_error
    {source rest : List Char}
    {first : Char}
    {cause : SourceError}
    (skipped : skipBlanks false source = first :: rest)
    (scanned : scanToken first rest = .error cause) :
    lex source = .error cause := by
  rw [lex]
  split
  · rename_i occurs
    rw [skipped] at occurs
    contradiction
  · rename_i occurs
    rw [skipped] at occurs
    obtain ⟨rfl, rfl⟩ := List.cons.inj occurs
    split
    · rename_i fails
      rw [scanned] at fails
      rw [← Except.error.inj fails]
    · rename_i succeeds
      rw [scanned] at succeeds
      contradiction

/-- The tokens of a source depend only on what stands behind its first blanks. -/
theorem lex_congr
    {left right : List Char}
    (same : skipBlanks false left = skipBlanks false right) :
    lex left = lex right := by
  cases skipped : skipBlanks false right with
  | nil =>
      rw [lex_of_skipBlanks_nil skipped, lex_of_skipBlanks_nil (same.trans skipped)]
  | cons first rest =>
      cases scanned : scanToken first rest with
      | error cause =>
          rw [lex_of_scanToken_error skipped scanned,
            lex_of_scanToken_error (same.trans skipped) scanned]
      | ok result =>
          rw [lex_of_scanToken skipped scanned,
            lex_of_scanToken (same.trans skipped) scanned]

@[simp] theorem lex_nil : lex [] = .ok [] :=
  lex_of_skipBlanks_nil rfl

@[simp] theorem lex_space (rest : List Char) : lex (' ' :: rest) = lex rest :=
  lex_congr rfl

/-! ## Blanks -/

theorem eq_of_isSeparator
    {character : Char}
    (separator : isSeparator character = true) :
    character = ' ' ∨ character = '\t' ∨ character = '\r' ∨ character = '\n' := by
  simpa [isSeparator, or_assoc] using separator

/-- A comment takes the rest of its line. -/
theorem skipBlanks_true
    {source : List Char}
    (oneLine : '\n' ∉ source) :
    skipBlanks true source = [] := by
  induction source with
  | nil => rfl
  | cons character source inductionHypothesis =>
      rw [List.mem_cons, not_or] at oneLine
      have goesOn : (character != '\n') = true := by simpa using Ne.symm oneLine.1
      rw [skipBlanks, if_pos rfl, goesOn]
      exact inductionHypothesis oneLine.2

/-! ## Symbols -/

/-- The symbol that one character is, whatever follows it. -/
def singleSymbol : Char → Symbol
  | '(' => .leftParen
  | ')' => .rightParen
  | '[' => .leftBracket
  | ']' => .rightBracket
  | '{' => .leftBrace
  | '}' => .rightBrace
  | ',' => .comma
  | ':' => .colon
  | '+' => .plus
  | '-' => .minus
  | _ => .percent

/-- The characters that are a symbol, whatever follows them. -/
def singleCharacters : List Char :=
  ['(', ')', '[', ']', '{', '}', ',', ':', '+', '-', '%']

/-- A character that is a symbol by itself gives the token of that symbol. -/
theorem lex_single
    {character : Char}
    (single : character ∈ singleCharacters)
    (rest : List Char) :
    lex (character :: rest) = (lex rest).map (.symbol (singleSymbol character) :: ·) := by
  simp only [singleCharacters, List.mem_cons, List.not_mem_nil, or_false] at single
  rcases single with rfl | rfl | rfl | rfl | rfl | rfl | rfl | rfl | rfl | rfl | rfl <;>
    exact lex_of_scanToken rfl rfl

/-- A dot gives its token when no digit follows it. -/
theorem lex_dot
    {rest : List Char}
    (noDigit : ∀ following ∈ rest.head?, following.isDigit = false) :
    lex ('.' :: rest) = (lex rest).map (.symbol .dot :: ·) := by
  apply lex_of_scanToken rfl
  have noFraction : scanFraction? ('.' :: rest) = none := by
    cases rest with
    | nil => rfl
    | cons following rest =>
        have noDigit := noDigit following rfl
        simp [scanFraction?, noDigit]
  simp [scanToken, noFraction]

/-! ## Words -/

/-- A word starts as a name and goes on as one. -/
def IsWord : List Char → Prop
  | [] => False
  | first :: rest => isNameStart first = true ∧ ∀ part ∈ rest, isNamePart part = true

/-- A text is a name when it is a word and no keyword. -/
structure IsName (name : String) : Prop where
  /-- The text is a word. -/
  isWord : IsWord name.toList
  /-- The text is no keyword. -/
  noKeyword : Symbol.ofWord? name = none

/-- What follows a token leaves it as it is: it prolongs neither a word nor a number. -/
def StartsApart (text : List Char) : Prop :=
  (∀ first ∈ text.head?, isNamePart first = false) ∧
    ∀ second ∈ text.tail.head?, text.head? = some '.' → second.isDigit = false

/-- The longest run at the front of a text ends where a character of another class follows. -/
theorem span_append
    {inClass : Char → Bool}
    {run rest : List Char}
    (inside : ∀ character ∈ run, inClass character = true)
    (outside : ∀ first ∈ rest.head?, inClass first = false) :
    (run ++ rest).takeWhile inClass = run ∧ (run ++ rest).dropWhile inClass = rest := by
  induction run with
  | nil =>
      cases rest with
      | nil => exact ⟨rfl, rfl⟩
      | cons first rest =>
          have excluded := outside first rfl
          simp [excluded]
  | cons character run inductionHypothesis =>
      have member := inside character (by simp)
      obtain ⟨taken, dropped⟩ :=
        inductionHypothesis fun other among => inside other (by simp [among])
      simp [member, taken, dropped]

/-- A character of a name starts neither a blank nor a comment. -/
theorem skipBlanks_of_isNamePart
    {first : Char}
    (part : isNamePart first = true)
    (rest : List Char) :
    skipBlanks false (first :: rest) = first :: rest := by
  have noSpace := ne_of_isNamePart part ' ' (by decide) rfl
  have noTab := ne_of_isNamePart part '\t' (by decide) rfl
  have noReturn := ne_of_isNamePart part '\r' (by decide) rfl
  have noFeed := ne_of_isNamePart part '\n' (by decide) rfl
  have noComment := ne_of_isNamePart part '#' (by decide) rfl
  simp [skipBlanks, isSeparator, noSpace, noTab, noReturn, noFeed, noComment]

/-- A character that starts a name gives the token of the word that it starts. -/
theorem scanToken_of_isNameStart
    {first : Char}
    (start : isNameStart first = true)
    (rest : List Char) :
    scanToken first rest =
      .ok (.ofWord (first :: rest.takeWhile isNamePart), rest.dropWhile isNamePart) := by
  have part := isNamePart_of_isNameStart start
  have noDigit := isDigit_eq_false_of_isNameStart start
  have noDot := ne_of_isNamePart part '.' (by decide) rfl
  have noQuote := ne_of_isNamePart part '"' (by decide) rfl
  have noApostrophe := ne_of_isNamePart part '\'' (by decide) rfl
  simp [scanToken, noDigit, noDot, noQuote, noApostrophe, start]

/-- A word in front of a source gives its token. -/
theorem lex_word
    {word rest : List Char}
    (isWord : IsWord word)
    (apart : StartsApart rest) :
    lex (word ++ rest) = (lex rest).map (.ofWord word :: ·) := by
  cases word with
  | nil => exact isWord.elim
  | cons first parts =>
      obtain ⟨start, inside⟩ := isWord
      obtain ⟨taken, dropped⟩ := span_append inside apart.1
      have scanned := scanToken_of_isNameStart start (parts ++ rest)
      rw [taken, dropped] at scanned
      have kept := skipBlanks_of_isNamePart (isNamePart_of_isNameStart start) (parts ++ rest)
      exact lex_of_scanToken kept scanned

/-- A name in front of a source gives its token. -/
theorem lex_name
    {name : String}
    {rest : List Char}
    (isName : IsName name)
    (apart : StartsApart rest) :
    lex (name.toList ++ rest) = (lex rest).map (.name name :: ·) := by
  rw [lex_word isName.isWord apart]
  simp [Token.ofWord, isName.noKeyword]

/-! ## Integers -/

/-- No fraction starts where a token ends. -/
theorem scanFraction_of_apart
    {rest : List Char}
    (apart : StartsApart rest) :
    scanFraction? rest = none := by
  match rest, apart with
  | [], _ => rfl
  | ['.'], _ => rfl
  | '.' :: second :: rest, apart =>
      have noDigit := apart.2 second rfl rfl
      simp [scanFraction?, noDigit]
  | first :: rest, apart =>
      unfold scanFraction?
      split
      · rename_i isDot
        obtain ⟨rfl, rfl⟩ := List.cons.inj isDot
        cases rest with
        | nil => rfl
        | cons second rest =>
            have noDigit := apart.2 second rfl rfl
            simp [noDigit]
      · rfl

/-- No exponent starts where a token ends. -/
theorem scanExponent_of_apart
    {rest : List Char}
    (apart : StartsApart rest) :
    scanExponent? rest = none := by
  cases rest with
  | nil => rfl
  | cons first rest =>
      have noPart := apart.1 first rfl
      have noLower : first ≠ 'e' := by
        rintro rfl
        simp [isNamePart, isLetter] at noPart
      have noUpper : first ≠ 'E' := by
        rintro rfl
        simp [isNamePart, isLetter] at noPart
      simp [scanExponent?, noLower, noUpper]

/-- Digits in front of a source are taken together, up to where something else starts. -/
theorem scanToken_digits
    {first : Char}
    {more rest : List Char}
    (areDigits : ∀ digit ∈ first :: more, digit.isDigit = true)
    (noDigit : ∀ following ∈ rest.head?, following.isDigit = false) :
    scanToken first (more ++ rest) = scanNumber (first :: more) rest := by
  have isDigit := areDigits first (by simp)
  have inside : ∀ digit ∈ more, digit.isDigit = true := fun digit among =>
    areDigits digit (by simp [among])
  obtain ⟨taken, dropped⟩ := span_append inside noDigit
  unfold scanToken
  rw [if_pos isDigit, taken, dropped]

/-- Digits in front of a source give the token of the number that they start. -/
theorem lex_digits
    {digits rest remaining : List Char}
    {token : Token}
    (nonempty : digits ≠ [])
    (areDigits : ∀ digit ∈ digits, digit.isDigit = true)
    (noDigit : ∀ first ∈ rest.head?, first.isDigit = false)
    (scanned : scanNumber digits rest = .ok (token, remaining)) :
    lex (digits ++ rest) = (lex remaining).map (token :: ·) := by
  cases digits with
  | nil => contradiction
  | cons first more =>
      have part := isNamePart_of_isDigit (areDigits first (by simp))
      rw [List.cons_append]
      apply lex_of_scanToken (skipBlanks_of_isNamePart part _)
      rw [scanToken_digits areDigits noDigit, scanned]

/-- Digits in front of a source are refused as the number that they start is. -/
theorem lex_digits_error
    {digits rest : List Char}
    {cause : SourceError}
    (nonempty : digits ≠ [])
    (areDigits : ∀ digit ∈ digits, digit.isDigit = true)
    (noDigit : ∀ first ∈ rest.head?, first.isDigit = false)
    (scanned : scanNumber digits rest = .error cause) :
    lex (digits ++ rest) = .error cause := by
  cases digits with
  | nil => contradiction
  | cons first more =>
      have part := isNamePart_of_isDigit (areDigits first (by simp))
      rw [List.cons_append]
      apply lex_of_scanToken_error (skipBlanks_of_isNamePart part _)
      rw [scanToken_digits areDigits noDigit, scanned]

/-- A character that prolongs no token is no digit. -/
theorem StartsApart.noDigit
    {rest : List Char}
    (apart : StartsApart rest) :
    ∀ first ∈ rest.head?, first.isDigit = false := by
  intro first isFirst
  have noPart := apart.1 first isFirst
  cases digit : first.isDigit with
  | false => rfl
  | true => simp [isNamePart_of_isDigit digit] at noPart

/-- Digits that nothing prolongs are an integer, which must not be too large. -/
theorem scanNumber_of_apart
    {rest : List Char}
    (apart : StartsApart rest)
    (digits : List Char) :
    scanNumber digits rest =
      if Int64.maxValue.toInt < Decimal.digitsValue digits then
        .error (.integerTooLarge (.ofList digits))
      else .ok (.int (.ofNat (Decimal.digitsValue digits)), rest) := by
  simp [scanNumber, scanFraction_of_apart apart, scanExponent_of_apart apart]

/-- The digits of a natural number in front of a source give its token. -/
theorem lex_toDigits
    {value : Nat}
    {rest : List Char}
    (fits : value ≤ Int64.maxValue.toInt)
    (apart : StartsApart rest) :
    lex (Nat.toDigits 10 value ++ rest) = (lex rest).map (.int (.ofNat value) :: ·) := by
  apply lex_digits Nat.toDigits_ne_nil
  · intro digit among
    exact Nat.isDigit_of_mem_toDigits (by decide) (by decide) among
  · exact apart.noDigit
  · have reads : Decimal.digitsValue (Nat.toDigits 10 value) = value :=
      Nat.ofDigitChars_ten_toDigits
    rw [scanNumber_of_apart apart, reads, if_neg (by omega)]

/-- Digits around a point give the token of the double nearest to them. -/
theorem lex_decimal
    {whole fraction rest : List Char}
    (nonempty : whole ≠ [])
    (wholeDigits : ∀ digit ∈ whole, digit.isDigit = true)
    (fractionNonempty : fraction ≠ [])
    (fractionDigits : ∀ digit ∈ fraction, digit.isDigit = true)
    (apart : StartsApart rest) :
    lex (whole ++ '.' :: (fraction ++ rest)) =
      (lex rest).map (.float (Decimal.ofDigits false whole fraction 0) :: ·) := by
  apply lex_digits nonempty wholeDigits
  · intro first isFirst
    obtain rfl : '.' = first := by simpa using isFirst
    rfl
  · obtain ⟨taken, dropped⟩ := span_append fractionDigits apart.noDigit
    have scanned : scanFraction? ('.' :: (fraction ++ rest)) = some (fraction, rest) := by
      simp [scanFraction?, taken, dropped, fractionNonempty]
    simp [scanNumber, scanned, scanExponent_of_apart apart]

/-- An integer that is not negative gives its token. -/
theorem lex_integer
    {value : Int64}
    {rest : List Char}
    (nonnegative : 0 ≤ value.toInt)
    (apart : StartsApart rest) :
    lex (Decimal.integerText value.toInt ++ rest) = (lex rest).map (.int value :: ·) := by
  have largest : value.toInt ≤ Int64.maxValue.toInt := Int64.toInt_le value
  have written : Decimal.integerText value.toInt = Nat.toDigits 10 value.toInt.toNat := by
    unfold Decimal.integerText
    rw [if_neg (by omega)]
    congr 1
    omega
  have same : Int64.ofNat value.toInt.toNat = value := by
    rw [← Int64.ofInt_eq_ofNat, Int.toNat_of_nonneg nonnegative, Int64.ofInt_toInt]
  rw [written, lex_toDigits (by omega) apart, same]

/-! ## Quoted texts -/

/-- An escape inside a string stands for its characters. -/
theorem scanString_escape
    (mark character : Char)
    (rest : List Char) :
    scanString mark ('\\' :: character :: rest) =
      (scanString mark rest).map fun result => (escaped character ++ result.1, result.2) := by
  rw [scanString]
  cases scanString mark rest <;> rfl

/-- Any other character inside a string stands for itself. -/
theorem scanString_plain
    {mark character : Char}
    (noEscape : character ≠ '\\')
    (noFeed : character ≠ '\n')
    (noMark : character ≠ mark)
    (rest : List Char) :
    scanString mark (character :: rest) =
      (scanString mark rest).map fun result => (character :: result.1, result.2) := by
  rw [scanString]
  · rw [if_neg noFeed, if_neg noMark]
    cases scanString mark rest <;> rfl
  · simp [noEscape]
  · simp [noEscape]

/-- A character that is read without an escape is no backslash. -/
theorem ne_backslash
    {character : Char}
    {rest : List Char}
    (notLast : character = '\\' → rest = [] → False)
    (notEscape : ∀ next others, character = '\\' → rest = next :: others → False) :
    character ≠ '\\' := by
  rintro rfl
  cases rest with
  | nil => exact notLast rfl rfl
  | cons next others => exact notEscape next others rfl rfl

/-- The quote that opened a string closes it. -/
theorem scanString_mark
    {mark : Char}
    (noEscape : mark ≠ '\\')
    (noFeed : mark ≠ '\n')
    (rest : List Char) :
    scanString mark (mark :: rest) = .ok ([], rest) := by
  rw [scanString]
  · rw [if_neg noFeed, if_pos rfl]
  · simp [noEscape]
  · simp [noEscape]

/-- A character of a quoted text is read back. -/
theorem scanString_quoteCharacter
    {mark : Char}
    (isQuote : mark = '\'' ∨ mark = '"')
    (character : Char)
    (rest : List Char) :
    scanString mark (quoteCharacter mark character ++ rest) =
      (scanString mark rest).map fun result => (character :: result.1, result.2) := by
  have escapesItself : escaped mark = [mark] := by rcases isQuote with rfl | rfl <;> rfl
  unfold quoteCharacter
  split
  · subst character
    exact scanString_escape mark '\\' rest
  · split
    · subst character
      exact scanString_escape mark 'n' rest
    · split
      · subst character
        exact scanString_escape mark 't' rest
      · split
        · subst character
          have read := scanString_escape mark mark rest
          rwa [escapesItself] at read
        · rename_i noEscape noFeed _ noMark
          exact scanString_plain noEscape noFeed noMark rest

/-- The escapes of a quoted text are resolved to the text. -/
theorem scanString_quoted
    {mark : Char}
    (isQuote : mark = '\'' ∨ mark = '"')
    (text rest : List Char) :
    scanString mark (text.flatMap (quoteCharacter mark) ++ mark :: rest) = .ok (text, rest) := by
  induction text with
  | nil =>
      apply scanString_mark
      · rcases isQuote with rfl | rfl <;> decide
      · rcases isQuote with rfl | rfl <;> decide
  | cons character text inductionHypothesis =>
      rw [List.flatMap_cons, List.append_assoc, scanString_quoteCharacter isQuote,
        inductionHypothesis]
      rfl

/-- A quoted text in front of a source gives the token of the text. -/
theorem lex_quoted
    (text rest : List Char) :
    lex (quoted text ++ rest) = (lex rest).map (.str (.ofList text) :: ·) := by
  have isQuote : quoteMark text = '\'' ∨ quoteMark text = '"' := by
    unfold quoteMark
    split
    · exact .inr rfl
    · exact .inl rfl
  have scanned := scanString_quoted isQuote text rest
  simp only [quoted, List.cons_append, List.append_assoc]
  rcases isQuote with isApostrophe | isDouble
  · rw [isApostrophe] at scanned ⊢
    apply lex_of_scanToken rfl
    simp [scanToken, scanned, bind, Except.bind, pure, Except.pure]
  · rw [isDouble] at scanned ⊢
    apply lex_of_scanToken rfl
    simp [scanToken, scanned, bind, Except.bind, pure, Except.pure]

end Expression
end TemplatedMarkup
