import TemplatedMarkup.Proofs.Expression.Writable

/-!
# What the lexer gives

The tokens of a source carry a little more than their type says: numbers have no sign, and names
are names.
-/

namespace TemplatedMarkup
namespace Expression

open Text

/-- What the lexer grants of a token: numbers have no sign, names are words and no keywords. -/
def Token.Lexed : Token → Prop
  | .int value => (Literal.int value).Writable
  | .float value => (Literal.float value).Writable
  | .name text => IsName text
  | _ => True

/-- How a source is cut into its tokens, one after the other. -/
inductive Lexes : List Char → List Token → Prop where
  | blank {source : List Char} :
      skipBlanks false source = [] → Lexes source []
  | token {source rest remaining : List Char} {first : Char} {found : Token}
      {tokens : List Token} :
      skipBlanks false source = first :: rest →
      scanToken first rest = .ok (found, remaining) →
      Lexes remaining tokens → Lexes source (found :: tokens)

/-- The tokens that the lexer gives are cut off one after the other. -/
theorem lexes_of_lex
    {source : List Char}
    {tokens : List Token}
    (lexed : lex source = .ok tokens) :
    Lexes source tokens := by
  induction size : source.length using Nat.strongRecOn generalizing source tokens with
  | ind size inductionHypothesis =>
      cases skipped : skipBlanks false source with
      | nil =>
          rw [lex_of_skipBlanks_nil skipped] at lexed
          obtain rfl := Except.ok.inj lexed
          exact .blank skipped
      | cons first rest =>
          cases scanned : scanToken first rest with
          | error cause =>
              rw [lex_of_scanToken_error skipped scanned] at lexed
              contradiction
          | ok result =>
              obtain ⟨found, remaining⟩ := result
              rw [lex_of_scanToken skipped scanned] at lexed
              cases others : lex remaining with
              | error cause =>
                  rw [others] at lexed
                  contradiction
              | ok more =>
                  rw [others] at lexed
                  obtain rfl := Except.ok.inj lexed
                  have skips := length_skipBlanks_le false source
                  have scans := length_scanToken_le scanned
                  rw [skipped, List.length_cons] at skips
                  exact .token skipped scanned
                    (inductionHypothesis remaining.length (by omega) others rfl)

/-- The double that digits spell has no sign. -/
theorem writable_ofDigits
    (whole fraction : List Char)
    (exponent : Int) :
    (Literal.float (Decimal.ofDigits false whole fraction exponent)).Writable := by
  refine ⟨_, ?_, rfl⟩
  split
  · exact Nat.zero_le _
  · split
    · exact Nat.le_refl _
    · have bounded (numerator denominator : Nat) :
          Decimal.nearestBits numerator denominator ≤ Decimal.infinityBits := by
        unfold Decimal.nearestBits
        split
        · exact Nat.zero_le _
        · exact Nat.min_le_right _ _
      split <;> exact bounded _ _

theorem lexed_of_scanNumber
    {whole rest remaining : List Char}
    {token : Token}
    (scanned : scanNumber whole rest = .ok (token, remaining)) :
    token.Lexed := by
  unfold scanNumber at scanned
  simp only at scanned
  split at scanned
  · split at scanned
    · contradiction
    · rename_i fits
      obtain ⟨rfl, -⟩ := Prod.mk.inj (Except.ok.inj scanned)
      have small : (Decimal.digitsValue whole : Int) < 2 ^ 63 := by
        have largest : Int64.maxValue.toInt < 2 ^ 63 := by decide
        omega
      change 0 ≤ (Int64.ofNat (Decimal.digitsValue whole)).toInt
      rw [Int64.toInt_ofNat_of_lt (by exact_mod_cast small)]
      exact Int.natCast_nonneg _
  · obtain ⟨rfl, -⟩ := Prod.mk.inj (Except.ok.inj scanned)
    exact writable_ofDigits _ _ _
  · obtain ⟨rfl, -⟩ := Prod.mk.inj (Except.ok.inj scanned)
    exact writable_ofDigits _ _ _

/-- The token that a word spells is a name only if the word is no keyword. -/
theorem lexed_ofWord
    {word : List Char}
    (isWord : IsWord word) :
    (Token.ofWord word).Lexed := by
  cases keyword : Symbol.ofWord? (.ofList word) with
  | some kind => simp [Token.ofWord, keyword, Token.Lexed]
  | none =>
      simp only [Token.ofWord, keyword]
      exact ⟨by simpa using isWord, keyword⟩

theorem lexed_of_scanToken
    {first : Char}
    {rest remaining : List Char}
    {token : Token}
    (scanned : scanToken first rest = .ok (token, remaining)) :
    token.Lexed := by
  unfold scanToken at scanned
  split at scanned
  · exact lexed_of_scanNumber scanned
  · split at scanned
    · split at scanned
      · exact lexed_of_scanNumber scanned
      · obtain ⟨rfl, -⟩ := Prod.mk.inj (Except.ok.inj scanned)
        trivial
    · split at scanned
      · cases read : scanString first rest with
        | error cause => simp [read, bind, Except.bind] at scanned
        | ok result =>
            simp only [read, bind, Except.bind, pure, Except.pure] at scanned
            obtain ⟨rfl, -⟩ := Prod.mk.inj (Except.ok.inj scanned)
            trivial
      · split at scanned
        · rename_i start
          obtain ⟨rfl, -⟩ := Prod.mk.inj (Except.ok.inj scanned)
          exact lexed_ofWord ⟨start, List.all_eq_true.mp List.all_takeWhile⟩
        · unfold scanPair at scanned
          split at scanned <;> grind [Token.Lexed]

/-- Every token of a source is as the lexer grants. -/
theorem Lexes.lexed
    {source : List Char}
    {tokens : List Token}
    (lexes : Lexes source tokens) :
    ∀ token ∈ tokens, token.Lexed := by
  induction lexes with
  | blank => simp
  | token _ scanned _ inductionHypothesis =>
      exact List.forall_mem_cons.mpr ⟨lexed_of_scanToken scanned, inductionHypothesis⟩

/-- A name that is read as one and starts with no underscore can be referred to. -/
theorem isOwnName_of_tokenize
    {name : String}
    (identifier : tokenize name = .ok [.name name])
    (reserved : isReserved name = false) :
    IsOwnName name :=
  ⟨(lexes_of_lex identifier).lexed (.name name) (by simp), reserved⟩

end Expression
end TemplatedMarkup
