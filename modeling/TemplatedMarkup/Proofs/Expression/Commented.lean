import TemplatedMarkup.Proofs.Expression.Lexed

/-!
# Sources with a comment behind them

A blank or a comment behind a source prolongs none of its tokens, so the tokens are those of the
source without it.
-/

namespace TemplatedMarkup
namespace Expression

open Text

/-- What follows is nothing, or begins with a blank or a comment. -/
def StartsBlank (tail : List Char) : Prop :=
  ∀ first ∈ tail.head?, first ∈ [' ', '\t', '\r', '\n', '#']

variable {source tail rest : List Char} {token : Token} {first : Char}

/-! ## Numbers -/

section Numbers

theorem StartsBlank.startsApart
    (blank : StartsBlank tail) :
    StartsApart tail := by
  have noPart : ∀ first ∈ [' ', '\t', '\r', '\n', '#'], isNamePart first = false := by
    intro first isBlank
    simp only [List.mem_cons, List.not_mem_nil, or_false] at isBlank
    rcases isBlank with rfl | rfl | rfl | rfl | rfl <;>
      exact Bool.eq_false_iff.mpr fun isPart => ne_of_isNamePart isPart _ (by decide) rfl rfl
  refine ⟨fun first isFirst => noPart first (blank first isFirst), fun _ _ isDot => ?_⟩
  exact absurd (blank '.' isDot) (by decide)

/-- A run of a class does not go on over a character of another class. -/
theorem takeWhile_append
    {inClass : Char → Bool}
    (outside : ∀ first ∈ tail.head?, inClass first = false)
    (source : List Char) :
    (source ++ tail).takeWhile inClass = source.takeWhile inClass ∧
      (source ++ tail).dropWhile inClass = source.dropWhile inClass ++ tail := by
  induction source with
  | nil =>
      cases tail with
      | nil => exact ⟨rfl, rfl⟩
      | cons first others =>
          have isOutside := outside first rfl
          simp [isOutside]
  | cons character source inductionHypothesis =>
      cases inside : inClass character <;> simp [inside, inductionHypothesis]

theorem scanFraction?_append
    (blank : StartsBlank tail)
    (source : List Char) :
    scanFraction? (source ++ tail) =
      (scanFraction? source).map fun (digits, rest) => (digits, rest ++ tail) := by
  cases source with
  | nil => exact scanFraction_of_apart blank.startsApart
  | cons character source =>
      obtain ⟨taken, dropped⟩ := takeWhile_append blank.startsApart.noDigit source
      by_cases isDot : character = '.'
      · subst isDot
        rw [List.cons_append, scanFraction?, scanFraction?, taken, dropped]
        split <;> rfl
      · simp [scanFraction?, isDot]

theorem readSign_append
    (blank : StartsBlank tail)
    (source : List Char) :
    Decimal.readSign (source ++ tail) =
      ((Decimal.readSign source).1, (Decimal.readSign source).2 ++ tail) := by
  cases source with
  | nil =>
      rw [List.nil_append, Decimal.readSign.eq_def]
      split
      · exact absurd (blank '-' rfl) (by decide)
      · exact absurd (blank '+' rfl) (by decide)
      · rfl
  | cons character source =>
      rw [List.cons_append, Decimal.readSign.eq_def, Decimal.readSign.eq_def]
      split <;> simp_all

theorem scanExponent?_append
    (blank : StartsBlank tail)
    (source : List Char) :
    scanExponent? (source ++ tail) =
      (scanExponent? source).map fun (exponent, rest) => (exponent, rest ++ tail) := by
  cases source with
  | nil => exact scanExponent_of_apart blank.startsApart
  | cons mark source =>
      obtain ⟨taken, dropped⟩ :=
        takeWhile_append blank.startsApart.noDigit (Decimal.readSign source).2
      rw [List.cons_append, scanExponent?, scanExponent?]
      simp only [readSign_append blank, taken, dropped]
      split
      · split <;> rfl
      · rfl

theorem scanNumber_append
    {whole : List Char}
    (blank : StartsBlank tail)
    (scanned : scanNumber whole source = .ok (token, rest)) :
    scanNumber whole (source ++ tail) = .ok (token, rest ++ tail) := by
  unfold scanNumber at scanned ⊢
  simp only [scanFraction?_append blank]
  cases fraction : scanFraction? source with
  | none =>
      simp only [fraction, Option.map_none, scanExponent?_append blank] at scanned ⊢
      cases exponent : scanExponent? source <;> grind
  | some result =>
      simp only [fraction, Option.map_some, scanExponent?_append blank] at scanned ⊢
      cases exponent : scanExponent? result.2 <;> grind

end Numbers

/-! ## Tokens -/

section Tokens

/-- What follows the closing quote of a string does not matter. -/
theorem scanString_append
    {mark : Char}
    {characters : List Char}
    (scanned : scanString mark source = .ok (characters, rest))
    (tail : List Char) :
    scanString mark (source ++ tail) = .ok (characters, rest ++ tail) := by
  fun_induction scanString mark source generalizing characters rest with
  | case1 => contradiction
  | case2 => contradiction
  | case3 character behind inductionHypothesis =>
      cases found : scanString mark behind with
      | error => simp [found, bind, Except.bind] at scanned
      | ok result =>
          simp only [found, bind, Except.bind, pure, Except.pure] at scanned
          obtain ⟨rfl, rfl⟩ := Prod.mk.inj (Except.ok.inj scanned)
          rw [List.cons_append, List.cons_append, scanString_escape, inductionHypothesis found]
          rfl
  | case4 => contradiction
  | case5 behind notLast notEscape notEnd =>
      obtain ⟨rfl, rfl⟩ := Prod.mk.inj (Except.ok.inj scanned)
      exact scanString_mark (ne_backslash notLast notEscape) notEnd _
  | case6 character behind notLast notEscape notEnd notMark inductionHypothesis =>
      cases found : scanString mark behind with
      | error => simp [found, bind, Except.bind] at scanned
      | ok result =>
          simp only [found, bind, Except.bind, pure, Except.pure] at scanned
          obtain ⟨rfl, rfl⟩ := Prod.mk.inj (Except.ok.inj scanned)
          rw [List.cons_append, scanString_plain (ne_backslash notLast notEscape) notEnd notMark,
            inductionHypothesis found]
          rfl

theorem scanPair_append
    {second : Char}
    {pair single : Symbol}
    (blank : StartsBlank tail)
    (notBlank : second ∉ [' ', '\t', '\r', '\n', '#'])
    (source : List Char) :
    scanPair second pair single (source ++ tail) =
      ((scanPair second pair single source).1, (scanPair second pair single source).2 ++ tail) := by
  cases source with
  | nil =>
      cases tail with
      | nil => rfl
      | cons next others =>
          have differs : next ≠ second := fun same => notBlank (same ▸ blank next rfl)
          simp [scanPair, differs]
  | cons character source =>
      rw [List.cons_append, scanPair, scanPair]
      split <;> rfl

theorem scanToken_append
    (blank : StartsBlank tail)
    (scanned : scanToken first source = .ok (token, rest)) :
    scanToken first (source ++ tail) = .ok (token, rest ++ tail) := by
  unfold scanToken at scanned ⊢
  split at scanned
  · rename_i digit
    obtain ⟨taken, dropped⟩ := takeWhile_append blank.startsApart.noDigit source
    rw [if_pos digit, taken, dropped]
    exact scanNumber_append blank scanned
  rename_i noDigit
  rw [if_neg noDigit]
  split at scanned
  · rename_i isDot
    subst isDot
    rw [if_pos rfl, ← List.cons_append, scanFraction?_append blank]
    cases fraction : scanFraction? ('.' :: source) with
    | none =>
        simp only [fraction, Option.map_none] at scanned ⊢
        obtain ⟨rfl, rfl⟩ := Prod.mk.inj (Except.ok.inj scanned)
        rfl
    | some result =>
        simp only [fraction, Option.map_some] at scanned ⊢
        exact scanNumber_append blank scanned
  rename_i notDot
  rw [if_neg notDot]
  split at scanned
  · rename_i isQuote
    rw [if_pos isQuote]
    cases read : scanString first source with
    | error => simp [read, bind, Except.bind] at scanned
    | ok result =>
        simp only [read, bind, Except.bind, pure, Except.pure] at scanned
        obtain ⟨rfl, rfl⟩ := Prod.mk.inj (Except.ok.inj scanned)
        rw [scanString_append read]
        rfl
  rename_i notQuote
  rw [if_neg notQuote]
  split at scanned
  · rename_i start
    obtain ⟨taken, dropped⟩ := takeWhile_append blank.startsApart.1 source
    obtain ⟨rfl, rfl⟩ := Prod.mk.inj (Except.ok.inj scanned)
    rw [if_pos start, taken, dropped]
  rename_i notStart
  rw [if_neg notStart]
  have pair {second : Char} {double single : Symbol}
      (notBlank : second ∉ [' ', '\t', '\r', '\n', '#'])
      (same : Except.ok (scanPair second double single source) =
        (Except.ok (token, rest) : Except SourceError (Token × List Char))) :
      Except.ok (scanPair second double single (source ++ tail)) =
        (Except.ok (token, rest ++ tail) : Except SourceError (Token × List Char)) := by
    rw [scanPair_append blank notBlank, Except.ok.inj same]
  split at scanned
  case h_3 | h_4 | h_6 | h_7 | h_8 => exact pair (by decide) scanned
  case h_17 =>
    split at scanned
    · obtain ⟨rfl, rfl⟩ := Prod.mk.inj (Except.ok.inj scanned)
      rfl
    · contradiction
  case h_18 => contradiction
  -- The other symbols are one character each.
  all_goals
    obtain ⟨rfl, rfl⟩ := Prod.mk.inj (Except.ok.inj scanned)
    rfl

end Tokens

/-! ## Comments -/

section Comments

/-- Blanks and a comment, all on one line. -/
structure IsTrailing (tail : List Char) : Prop where
  oneLine : '\n' ∉ tail
  skipped : skipBlanks false tail = []

theorem IsTrailing.startsBlank
    (trailing : IsTrailing tail) :
    StartsBlank tail := by
  intro first isFirst
  obtain ⟨others, rfl⟩ := List.head?_eq_some_iff.mp isFirst
  have skipped := trailing.skipped
  rw [skipBlanks, if_neg (by decide)] at skipped
  split at skipped
  · rename_i separator
    rcases eq_of_isSeparator separator with rfl | rfl | rfl | rfl <;> decide
  · split at skipped
    · rename_i isMark
      rw [isMark]
      decide
    · contradiction

/-- What is skipped up to the end of a source is skipped on to the end of its line. -/
theorem IsTrailing.skipBlanks_append
    (trailing : IsTrailing tail)
    {inComment : Bool}
    (skipped : skipBlanks inComment source = []) :
    skipBlanks inComment (source ++ tail) = [] := by
  fun_induction skipBlanks inComment source with
  | case1 inComment =>
      cases inComment with
      | true => exact skipBlanks_true trailing.oneLine
      | false => exact trailing.skipped
  | case2 character source inductionHypothesis =>
      simpa [skipBlanks] using inductionHypothesis skipped
  | case3 inComment character source noComment separator inductionHypothesis =>
      simpa [skipBlanks, noComment, separator] using inductionHypothesis skipped
  | case4 inComment source noComment noSeparator inductionHypothesis =>
      simpa [skipBlanks, noComment, noSeparator] using inductionHypothesis skipped
  | case5 => contradiction

/-- What is skipped in front of a token does not depend on what stands behind it. -/
theorem skipBlanks_append_of_eq_cons
    {inComment : Bool}
    (skipped : skipBlanks inComment source = first :: rest)
    (tail : List Char) :
    skipBlanks inComment (source ++ tail) = first :: (rest ++ tail) := by
  fun_induction skipBlanks inComment source with
  | case1 => contradiction
  | case2 character source inductionHypothesis =>
      simpa [skipBlanks] using inductionHypothesis skipped
  | case3 inComment character source noComment separator inductionHypothesis =>
      simpa [skipBlanks, noComment, separator] using inductionHypothesis skipped
  | case4 inComment source noComment noSeparator inductionHypothesis =>
      simpa [skipBlanks, noComment, noSeparator] using inductionHypothesis skipped
  | case5 inComment character source noComment noSeparator notMark =>
      obtain ⟨rfl, rfl⟩ := List.cons.inj skipped
      simp [skipBlanks, noComment, noSeparator, notMark]

/-- Blanks and a comment behind a source add no tokens to it. -/
theorem Lexes.append_trailing
    {tokens : List Token}
    (lexes : Lexes source tokens)
    (trailing : IsTrailing tail) :
    Lexes (source ++ tail) tokens := by
  induction lexes with
  | blank skipped => exact .blank (trailing.skipBlanks_append skipped)
  | token skipped scanned _ inductionHypothesis =>
      exact .token (skipBlanks_append_of_eq_cons skipped tail)
        (scanToken_append trailing.startsBlank scanned) inductionHypothesis

theorem Lexes.lex_eq
    {tokens : List Token}
    (lexes : Lexes source tokens) :
    lex source = .ok tokens := by
  induction lexes with
  | blank skipped => exact lex_of_skipBlanks_nil skipped
  | token skipped scanned _ inductionHypothesis =>
      rw [lex_of_scanToken skipped scanned, inductionHypothesis]
      rfl

/-- Blanks and the mark of a comment are skipped with the rest of the line. -/
theorem isTrailing_comment
    {blanks comment : List Char}
    (separators : ∀ blank ∈ blanks, isSeparator blank = true)
    (oneLine : '\n' ∉ blanks ++ '#' :: comment) :
    IsTrailing (blanks ++ '#' :: comment) := by
  refine ⟨oneLine, ?_⟩
  induction blanks with
  | nil =>
      rw [List.nil_append, List.mem_cons, not_or] at oneLine
      rw [List.nil_append, skipBlanks, if_neg (by decide), if_neg (by decide), if_pos rfl]
      exact skipBlanks_true oneLine.2
  | cons blank blanks inductionHypothesis =>
      rw [List.forall_mem_cons] at separators
      rw [List.cons_append, List.mem_cons, not_or] at oneLine
      rw [List.cons_append, skipBlanks, if_neg (by decide), if_pos separators.1]
      exact inductionHypothesis separators.2 oneLine.2

/-- The tokens of a source are those of the source with a comment behind it. -/
theorem lex_append_comment
    {tokens : List Token}
    {blanks comment : List Char}
    (lexed : lex source = .ok tokens)
    (separators : ∀ blank ∈ blanks, isSeparator blank = true)
    (oneLine : '\n' ∉ blanks ++ '#' :: comment) :
    lex (source ++ (blanks ++ '#' :: comment)) = .ok tokens :=
  ((lexes_of_lex lexed).append_trailing (isTrailing_comment separators oneLine)).lex_eq

end Comments

end Expression
end TemplatedMarkup
