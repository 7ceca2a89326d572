import TemplatedMarkup.Proofs.Expression.Lexed

/-!
# Words at the start of a source

The names of declarations and filters are words, whose characters may be others than those of
names.  A source that starts with a word has it as its first token, if that token is a name or the
keyword of definitions; a word with any other character is refused.
-/

namespace TemplatedMarkup

open Text

/-- A character of a word differs from every character that is none. -/
theorem Text.ne_of_isWordPart
    {character : Char}
    (wordPart : isWordPart character = true)
    (other : Char)
    (noWord : isWordPart other = false) :
    character ≠ other := by
  rintro rfl
  rw [noWord] at wordPart
  contradiction

/-- A character of a word is no blank. -/
theorem Text.isBlank_eq_false_of_isWordPart
    {character : Char}
    (wordPart : isWordPart character = true) :
    isBlank character = false :=
  isBlank_eq_false_of_apart (by decide +kernel) wordPart

/-- A word of the kind that names a declaration or a filter. -/
structure Text.IsWordRun (word : List Char) : Prop where
  /-- There is a character. -/
  nonempty : word ≠ []
  /-- Every character may stand in a word. -/
  wordParts : ∀ part ∈ word, isWordPart part = true

namespace Expression

/-- A character of a word starts neither a blank nor a comment. -/
theorem skipBlanks_of_isWordPart
    {first : Char}
    (wordPart : isWordPart first = true)
    (rest : List Char) :
    skipBlanks false (first :: rest) = first :: rest := by
  have excluded := ne_of_isWordPart wordPart
  simp [skipBlanks, isSeparator, excluded ' ' (by decide), excluded '\t' (by decide),
    excluded '\r' (by decide), excluded '\n' (by decide), excluded '#' (by decide)]

/-- The characters of words that are no characters of names start no token. -/
theorem lex_of_isWordPart
    {character : Char}
    (wordPart : isWordPart character = true)
    (noPart : isNamePart character = false)
    (rest : List Char) :
    lex (character :: rest) = .error (.unexpectedCharacter character) := by
  have excluded := ne_of_isWordPart wordPart
  have noDigit : character.isDigit = false := by
    cases digit : character.isDigit with
    | false => rfl
    | true => rwa [isNamePart_of_isDigit digit] at noPart
  have noStart : isNameStart character = false := by
    cases start : isNameStart character with
    | false => rfl
    | true => rwa [isNamePart_of_isNameStart start] at noPart
  apply lex_of_scanToken_error (skipBlanks_of_isWordPart wordPart rest)
  simp only [scanToken, noDigit, noStart, Bool.false_eq_true, if_false,
    excluded '.' (by decide), excluded '"' (by decide), excluded '\'' (by decide), or_self]
  split
  case h_18 => rfl
  all_goals exact absurd rfl (excluded _ (by decide))

/-- A word that spells a name is no keyword, and is the name. -/
theorem Token.eq_of_ofWord
    {word : List Char}
    {name : String}
    (isName : Token.ofWord word = .name name) :
    Symbol.ofWord? (.ofList word) = none ∧ .ofList word = name := by
  unfold Token.ofWord at isName
  simp only at isName
  split at isName
  · contradiction
  · rename_i noKeyword
    exact ⟨noKeyword, Token.name.inj isName⟩

/-- The tokens that a statement starts with: a name or the keyword of definitions. -/
def Token.OpensStatement (token : Token) : Prop :=
  token = .symbol .defKeyword ∨ ∃ name, token = .name name

/-- Only the start of a name gives a token that a statement starts with. -/
theorem Token.OpensStatement.isNameStart
    {first : Char}
    {rest remaining : List Char}
    {token : Token}
    (opens : token.OpensStatement)
    (scanned : scanToken first rest = .ok (token, remaining)) :
    isNameStart first = true := by
  unfold OpensStatement at opens
  have noNumber {whole rest remaining : List Char} :
      scanNumber whole rest ≠ .ok (token, remaining) := by
    unfold scanNumber
    grind
  unfold scanToken scanPair at scanned
  split at scanned
  · exact absurd scanned noNumber
  · split at scanned
    · split at scanned
      · exact absurd scanned noNumber
      · grind
    · split at scanned
      · cases read : scanString first rest with
        | error cause => simp [read, bind, Except.bind] at scanned
        | ok result =>
            simp [read, bind, Except.bind, pure, Except.pure] at scanned
            grind
      · split at scanned
        · assumption
        · split at scanned <;> grind

/-- A word in front of a source is its first token when that token opens a statement. -/
theorem Token.OpensStatement.eq_ofWord
    {word rest : List Char}
    {token : Token}
    {tokens : List Token}
    (opens : token.OpensStatement)
    (isRun : IsWordRun word)
    (apart : StartsApart rest)
    (lexed : lex (word ++ rest) = .ok (token :: tokens)) :
    IsWord word ∧ token = .ofWord word ∧ lex rest = .ok tokens := by
  obtain ⟨nonempty, wordParts⟩ := isRun
  cases word with
  | nil => contradiction
  | cons first parts =>
      rw [List.cons_append] at lexed
      cases lexes_of_lex lexed with
      | @token _ following remaining head _ _ skipped scanned _ =>
          have kept := skipBlanks_of_isWordPart (wordParts first (by simp)) (parts ++ rest)
          obtain ⟨rfl, rfl⟩ := List.cons.inj (kept.symm.trans skipped)
          have start := opens.isNameStart scanned
          -- A part of the word that is none of a name would start the next token.
          have inside : ∀ part ∈ parts, isNamePart part = true := by
            cases dropped : parts.dropWhile isNamePart with
            | nil => exact List.dropWhile_eq_nil_iff.mp dropped
            | cons other more =>
                have among : other ∈ parts :=
                  (List.dropWhile_sublist isNamePart).mem (by simp [dropped])
                have noPart : isNamePart other = false := by
                  have excluded := List.head?_dropWhile_not isNamePart parts
                  simpa [dropped] using excluded
                have behind : (parts ++ rest).dropWhile isNamePart = other :: (more ++ rest) := by
                  simp [List.dropWhile_append, dropped]
                rw [lex_of_scanToken kept (scanToken_of_isNameStart start _), behind,
                  lex_of_isWordPart (wordParts other (by simp [among])) noPart] at lexed
                contradiction
          have isWord : IsWord (first :: parts) := ⟨start, inside⟩
          have whole := lex_word isWord apart
          rw [List.cons_append, lexed] at whole
          cases others : lex rest with
          | error cause =>
              rw [others] at whole
              contradiction
          | ok more =>
              rw [others] at whole
              obtain ⟨isToken, same⟩ := List.cons.inj (Except.ok.inj whole)
              exact ⟨isWord, isToken, by rw [same]⟩

end Expression
end TemplatedMarkup
