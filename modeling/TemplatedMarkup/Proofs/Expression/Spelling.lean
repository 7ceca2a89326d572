import TemplatedMarkup.Proofs.Decimal.Notation
import TemplatedMarkup.Proofs.Expression.Constant

/-!
# The tokens of a printed expression

Cutting the text of an expression into tokens gives the tokens of its parts in order.  The text
stands in front of any source that does not prolong its last token; it fails to lex exactly when
one of its constants does.
-/

namespace TemplatedMarkup
namespace Expression

open Text

/-- The symbol of an operator before its operand. -/
def UnaryOperator.symbol : UnaryOperator → Symbol
  | .negate => .minus
  | .plus => .plus
  | .not => .notKeyword

/-- The symbol of an operator between its operands. -/
def BinaryOperator.symbol : BinaryOperator → Symbol
  | .add => .plus
  | .subtract => .minus
  | .multiply => .star
  | .divide => .slash
  | .floorDivide => .doubleSlash
  | .modulo => .percent
  | .power => .doubleStar
  | .and => .andKeyword
  | .or => .orKeyword

/-- The tokens of a comparison. -/
def Comparison.tokens : Comparison → List Token
  | .equal => [.symbol .equal]
  | .notEqual => [.symbol .notEqual]
  | .less => [.symbol .less]
  | .lessEqual => [.symbol .lessEqual]
  | .greater => [.symbol .greater]
  | .greaterEqual => [.symbol .greaterEqual]
  | .member => [.symbol .inKeyword]
  | .notMember => [.symbol .notKeyword, .symbol .inKeyword]

namespace Expr

mutual

/-- The tokens of the text of an expression. -/
def tokens : Expr → List Token
  | .literal value => [value.token]
  | .variable name => [.name name]
  | .list items => .symbol .leftBracket :: itemsTokens items ++ [.symbol .rightBracket]
  | .dict entries => .symbol .leftBrace :: entriesTokens entries ++ [.symbol .rightBrace]
  | .unary operator operand =>
      .symbol .leftParen :: .symbol operator.symbol :: operand.tokens ++ [.symbol .rightParen]
  | .binary operator left right =>
      .symbol .leftParen :: left.tokens ++ .symbol operator.symbol :: right.tokens ++
        [.symbol .rightParen]
  | .comparison first links =>
      .symbol .leftParen :: first.tokens ++ linksTokens links ++ [.symbol .rightParen]
  | .conditional condition consequence alternative =>
      .symbol .leftParen :: consequence.tokens ++ .symbol .ifKeyword :: condition.tokens ++
        .symbol .elseKeyword :: alternative.tokens ++ [.symbol .rightParen]
  | .call name arguments =>
      .name name :: .symbol .leftParen :: itemsTokens arguments ++ [.symbol .rightParen]
  | .method receiver name arguments =>
      receiver.tokens ++ .symbol .dot :: .name name :: .symbol .leftParen ::
        itemsTokens arguments ++ [.symbol .rightParen]
  | .index collection position =>
      collection.tokens ++ .symbol .leftBracket :: position.tokens ++ [.symbol .rightBracket]
  | .slice collection start stop step =>
      collection.tokens ++ .symbol .leftBracket :: boundTokens start ++ .symbol .colon ::
        boundTokens stop ++ stepTokens step ++ [.symbol .rightBracket]

/-- The tokens of the expressions of a list, with commas between them. -/
def itemsTokens : List Expr → List Token
  | [] => []
  | [item] => item.tokens
  | item :: items => item.tokens ++ .symbol .comma :: itemsTokens items

/-- The tokens of keys and values, with commas between the entries. -/
def entriesTokens : List (Expr × Expr) → List Token
  | [] => []
  | [(key, value)] => key.tokens ++ .symbol .colon :: value.tokens
  | (key, value) :: entries =>
      key.tokens ++ .symbol .colon :: value.tokens ++ .symbol .comma :: entriesTokens entries

/-- The tokens of the links of a chain. -/
def linksTokens : List (Comparison × Expr) → List Token
  | [] => []
  | (operator, operand) :: links => operator.tokens ++ operand.tokens ++ linksTokens links

/-- The tokens of a bound; an absent one has none. -/
def boundTokens : Option Expr → List Token
  | none => []
  | some bound => bound.tokens

/-- The tokens of a step behind its colon; an absent one has none. -/
def stepTokens : Option Expr → List Token
  | none => []
  | some step => .symbol .colon :: step.tokens

end

end Expr

/-- Token lists with commas between them, and with one behind the last if it is `trailing`. -/
def listed (trailing : Bool) : List (List Token) → List Token
  | [] => []
  | [last] => if trailing then last ++ [.symbol .comma] else last
  | tokens :: more => tokens ++ .symbol .comma :: listed trailing more

/-! ## Where a token ends -/

theorem startsApart_nil : StartsApart [] := by
  simp [StartsApart]

theorem startsApart_space (rest : List Char) : StartsApart (' ' :: rest) := by
  refine ⟨fun first isFirst => ?_, by simp⟩
  obtain rfl : ' ' = first := by simpa using isFirst
  decide

/-- No symbol of one character prolongs the token in front of it. -/
theorem startsApart_single
    {character : Char}
    (single : character ∈ singleCharacters)
    (rest : List Char) :
    StartsApart (character :: rest) := by
  have excluded : singleCharacters.all (fun single => !isNamePart single) = true := rfl
  have noPart : isNamePart character = false := by
    simpa using List.all_eq_true.mp excluded character single
  have noDot : character ≠ '.' := ne_of_mem_of_not_mem single (by decide)
  refine ⟨fun first isFirst => ?_, by simp [noDot]⟩
  obtain rfl : character = first := by simpa using isFirst
  exact noPart

/-- A dot in front of a name prolongs no token. -/
theorem startsApart_dot
    {word rest : List Char}
    (isWord : IsWord word) :
    StartsApart ('.' :: (word ++ rest)) := by
  cases word with
  | nil => exact isWord.elim
  | cons first parts =>
      refine ⟨fun character isFirst => ?_, fun second isSecond _ => ?_⟩
      · obtain rfl : '.' = character := by simpa using isFirst
        decide
      · obtain rfl : first = second := by simpa using isSecond
        exact isDigit_eq_false_of_isNameStart isWord.1

/-! ## Operators -/

theorem lex_unaryOperator
    (operator : UnaryOperator)
    (rest : List Char) :
    lex (operator.text ++ rest) = inFront [] [.symbol operator.symbol] (lex rest) := by
  rw [← map_cons_eq_inFront]
  cases operator with
  | negate => exact lex_of_scanToken rfl rfl
  | plus => exact lex_of_scanToken rfl rfl
  | not =>
      rw [← lex_space rest]
      exact lex_of_scanToken rfl rfl

theorem lex_binaryOperator
    (operator : BinaryOperator)
    (rest : List Char) :
    lex (operator.text ++ ' ' :: rest) = inFront [] [.symbol operator.symbol] (lex rest) := by
  rw [← map_cons_eq_inFront, ← lex_space rest]
  cases operator <;> exact lex_of_scanToken rfl rfl

/-- A keyword between spaces gives its token. -/
theorem lex_inKeyword (rest : List Char) :
    lex ("in".toList ++ ' ' :: rest) = inFront [] [.symbol .inKeyword] (lex rest) := by
  rw [← map_cons_eq_inFront, ← lex_space rest]
  exact lex_of_scanToken rfl rfl

theorem lex_comparison
    (comparison : Comparison)
    (rest : List Char) :
    lex (comparison.text ++ ' ' :: rest) = inFront [] comparison.tokens (lex rest) := by
  cases comparison with
  | notMember =>
      have scanned : lex (Comparison.notMember.text ++ ' ' :: rest) =
          (lex (' ' :: ("in".toList ++ ' ' :: rest))).map (.symbol .notKeyword :: ·) :=
        lex_of_scanToken rfl rfl
      rw [scanned, lex_space, lex_inKeyword, map_cons_eq_inFront, inFront_inFront]
      rfl
  | member => exact lex_inKeyword rest
  | _ =>
      rw [← lex_space rest]
      exact (lex_of_scanToken rfl rfl).trans (map_cons_eq_inFront _ _)

theorem startsApart_if (rest : List Char) : StartsApart (" if ".toList ++ rest) :=
  startsApart_space _

theorem startsApart_else (rest : List Char) : StartsApart (" else ".toList ++ rest) :=
  startsApart_space _

theorem lex_if (rest : List Char) :
    lex (" if ".toList ++ rest) = inFront [] [.symbol .ifKeyword] (lex rest) := by
  rw [← map_cons_eq_inFront, ← lex_space rest]
  exact (lex_space _).trans (lex_of_scanToken rfl rfl)

theorem lex_else (rest : List Char) :
    lex (" else ".toList ++ rest) = inFront [] [.symbol .elseKeyword] (lex rest) := by
  rw [← map_cons_eq_inFront, ← lex_space rest]
  exact (lex_space _).trans (lex_of_scanToken rfl rfl)

/-! ## Constants -/

/-- A constant that is a token stands as it in front of what follows. -/
theorem lex_of_check
    {value : Literal}
    {token : Token}
    {text rest : List Char}
    (accepted : value.check = .ok ())
    (lexed : lex (text ++ rest) = (lex rest).map (token :: ·)) :
    lex (text ++ rest) = inFront [value] [token] (lex rest) := by
  rw [lexed]
  cases following : lex rest <;>
    simp [inFront, accepted, bind, Except.bind, pure, Except.pure, Except.map]

section Double

variable
  {value : Float}
  {significand : Nat}
  {exponent : Int}
  {rest : List Char}

/-- A finite double below the bound of the notation gives its token. -/
theorem lex_float_of_lt
    (represents : Decimal.Represents value significand exponent)
    (below : value < Decimal.fractionBound)
    (apart : StartsApart rest) :
    lex (Decimal.floatLiteral value ++ rest) =
      inFront [.float value] [(Literal.float value).token] (lex rest) := by
  have bounded : value.abs < Decimal.fractionBound := by rwa [represents.abs_eq]
  obtain ⟨whole, fraction, wholeDigits, fractionDigits, written, reads⟩ :=
    represents.floatLiteral_of_lt below
  apply lex_of_check
  · simp [Literal.check, bounded]
  · have lexed := lex_decimal wholeDigits.nonempty wholeDigits.digits fractionDigits.nonempty
      fractionDigits.digits apart
    rw [reads] at lexed
    rw [written, List.append_assoc, List.cons_append, lexed]
    simp [Literal.token, bounded]

/-- A finite double from the bound on gives an integer, or none when that is too large. -/
theorem lex_float_of_not_lt
    (represents : Decimal.Represents value significand exponent)
    (notBelow : ¬ value < Decimal.fractionBound)
    (apart : StartsApart rest) :
    lex (Decimal.floatLiteral value ++ rest) =
      inFront [.float value] [(Literal.float value).token] (lex rest) := by
  have unbounded : ¬ value.abs < Decimal.fractionBound := by rwa [represents.abs_eq]
  have finite : Decimal.isFinite value = true := by
    simp [Decimal.isFinite, represents.magnitude_eq]
  have digits := represents.floatLiteral_of_not_lt notBelow
  have scanned := scanNumber_of_apart apart (Decimal.floatLiteral value)
  by_cases large :
      Int64.maxValue.toInt < (Decimal.digitsValue (Decimal.floatLiteral value) : Int)
  · rw [if_pos large] at scanned
    rw [lex_digits_error digits.nonempty digits.digits apart.noDigit scanned]
    simp [inFront, Literal.check, unbounded, finite, large, bind, Except.bind]
  · rw [if_neg large] at scanned
    apply lex_of_check
    · simp [Literal.check, unbounded, finite, large]
    · rw [lex_digits digits.nonempty digits.digits apart.noDigit scanned]
      simp [Literal.token, unbounded, finite]

/-- The text of infinity is a name. -/
theorem lex_infinity
    (infinite : value = Decimal.withSign false Decimal.infinityBits)
    (apart : StartsApart rest) :
    lex (Decimal.floatLiteral value ++ rest) =
      inFront [.float value] [(Literal.float value).token] (lex rest) := by
  have unbounded : ¬ value.abs < Decimal.fractionBound := by
    rw [infinite, Decimal.abs_withSign (Nat.le_refl _)]
    exact Decimal.not_infinity_lt_fractionBound
  have notFinite : Decimal.isFinite value = false := by
    subst infinite
    decide
  have written : Decimal.floatLiteral value = "inf".toList := by
    subst infinite
    decide
  have isWord : IsWord "inf".toList := ⟨rfl, List.all_eq_true.mp rfl⟩
  apply lex_of_check
  · simp [Literal.check, unbounded, notFinite]
  · rw [written, lex_word isWord apart]
    simp [Literal.token, unbounded, notFinite, Token.ofWord, Symbol.ofWord?]

/-- The text of a double gives its token, unless it is an integer that is too large. -/
theorem lex_float
    (writable : (Literal.float value).Writable)
    (apart : StartsApart rest) :
    lex (Decimal.floatLiteral value ++ rest) =
      inFront [.float value] [(Literal.float value).token] (lex rest) := by
  obtain ⟨bits, bounded, isValue⟩ := writable
  rcases Nat.lt_or_eq_of_le bounded with finite | rfl
  · obtain ⟨significand, exponent, canonical, rfl⟩ := Decimal.exists_bitsOf bits
    have represents : Decimal.Represents value significand exponent := ⟨canonical, finite, isValue⟩
    by_cases below : value < Decimal.fractionBound
    · exact lex_float_of_lt represents below apart
    · exact lex_float_of_not_lt represents below apart
  · exact lex_infinity isValue apart

end Double

theorem lex_literal
    {value : Literal}
    {rest : List Char}
    (writable : value.Writable)
    (apart : StartsApart rest) :
    lex (value.text ++ rest) = inFront [value] [value.token] (lex rest) := by
  have exactly {token : Token} (exact : value.isExact = true)
      (lexed : lex (value.text ++ rest) = (lex rest).map (token :: ·)) :
      lex (value.text ++ rest) = inFront [value] [token] (lex rest) :=
    lex_of_check (Literal.check_of_isExact exact) lexed
  cases value with
  | none => exact exactly rfl (lex_word ⟨rfl, List.all_eq_true.mp rfl⟩ apart)
  | bool value =>
      cases value with
      | true => exact exactly rfl (lex_word ⟨rfl, List.all_eq_true.mp rfl⟩ apart)
      | false => exact exactly rfl (lex_word ⟨rfl, List.all_eq_true.mp rfl⟩ apart)
  | int value => exact exactly rfl (lex_integer writable apart)
  | str text =>
      have lexed := lex_quoted text.toList rest
      rw [String.ofList_toList] at lexed
      exact exactly rfl lexed
  | float value => exact lex_float writable apart

/-! ## Expressions -/

/-- A text spells tokens with constants when it gives them in front of what stands apart. -/
def Spells
    (text : List Char)
    (constants : List Literal)
    (tokens : List Token) : Prop :=
  ∀ rest, StartsApart rest → lex (text ++ rest) = inFront constants tokens (lex rest)

/-- A symbol of one character behind a text stands apart from it. -/
theorem Spells.lex_append_single
    {text : List Char}
    {constants : List Literal}
    {tokens : List Token}
    {character : Char}
    (spells : Spells text constants tokens)
    (single : character ∈ singleCharacters)
    (rest : List Char) :
    lex (text ++ character :: rest) =
      inFront constants (tokens ++ [.symbol (singleSymbol character)]) (lex rest) := by
  rw [spells _ (startsApart_single single rest), lex_single single, map_cons_eq_inFront,
    inFront_inFront, List.append_nil]

/-- A space behind a text stands apart from it and is dropped. -/
theorem Spells.lex_append_space
    {text : List Char}
    {constants : List Literal}
    {tokens : List Token}
    (spells : Spells text constants tokens)
    (rest : List Char) :
    lex (text ++ ' ' :: rest) = inFront constants tokens (lex rest) := by
  rw [spells _ (startsApart_space rest), lex_space]

/-- A bracket around a text spells the tokens of the text between those of the bracket. -/
theorem Spells.bracketed
    {opening closing : Char}
    {text : List Char}
    {constants : List Literal}
    {tokens : List Token}
    (spells : Spells text constants tokens)
    (opens : opening ∈ singleCharacters)
    (closes : closing ∈ singleCharacters) :
    Spells (opening :: text ++ [closing]) constants
      (.symbol (singleSymbol opening) :: tokens ++ [.symbol (singleSymbol closing)]) := by
  intro rest _
  have spelled : opening :: text ++ [closing] ++ rest = opening :: (text ++ closing :: rest) := by
    simp
  rw [spelled, lex_single opens, spells.lex_append_single closes, map_cons_eq_inFront,
    inFront_inFront]
  rfl

/-- A key, a colon and a value spell the tokens of an entry. -/
theorem Spells.entry
    {key value : List Char}
    {keyConstants valueConstants : List Literal}
    {keyTokens valueTokens : List Token}
    (keySpells : Spells key keyConstants keyTokens)
    (valueSpells : Spells value valueConstants valueTokens) :
    Spells (key ++ ": ".toList ++ value) (keyConstants ++ valueConstants)
      (keyTokens ++ .symbol .colon :: valueTokens) := by
  intro rest apart
  have spelled : key ++ ": ".toList ++ value ++ rest = key ++ ':' :: ' ' :: (value ++ rest) := by
    simp
  rw [spelled, keySpells.lex_append_single (by decide), lex_space, valueSpells rest apart,
    inFront_inFront]
  simp [singleSymbol]

/-- Texts with commas between them spell the tokens of all with commas between them. -/
theorem spells_intercalate
    {Part : Type}
    {text : Part → List Char}
    {constants : Part → List Literal}
    {tokens : Part → List Token}
    {parts : List Part}
    (spells : ∀ part ∈ parts, Spells (text part) (constants part) (tokens part)) :
    Spells (", ".toList.intercalate (parts.map text)) (parts.flatMap constants)
      (listed false (parts.map tokens)) := by
  induction parts with
  | nil =>
      intro rest _
      cases following : lex rest <;> simp [listed, following]
  | cons part parts inductionHypothesis =>
      rw [List.forall_mem_cons] at spells
      cases parts with
      | nil => simpa [listed] using spells.1
      | cons second parts =>
          intro rest apart
          have spelled : ", ".toList.intercalate ((part :: second :: parts).map text) ++ rest =
              text part ++ ',' :: ' ' ::
                (", ".toList.intercalate ((second :: parts).map text) ++ rest) := by
            simp [List.intercalate_cons_cons]
          rw [spelled, spells.1.lex_append_single (by decide), lex_space,
            inductionHypothesis spells.2 rest apart, inFront_inFront]
          simp [listed, singleSymbol]

namespace Expr

theorem itemsText_eq (items : List Expr) :
    itemsText items = ", ".toList.intercalate (items.map text) := by
  induction items with
  | nil => rfl
  | cons item items inductionHypothesis =>
      cases items with
      | nil => simp [itemsText]
      | cons second items =>
          simp [itemsText, inductionHypothesis, List.intercalate_cons_cons]

theorem entriesText_eq (entries : List (Expr × Expr)) :
    entriesText entries = ", ".toList.intercalate (entries.map fun entry =>
      entry.1.text ++ ": ".toList ++ entry.2.text) := by
  induction entries with
  | nil => rfl
  | cons entry entries inductionHypothesis =>
      cases entries with
      | nil => simp [entriesText]
      | cons second entries =>
          simp [entriesText, inductionHypothesis, List.intercalate_cons_cons]

theorem itemsConstants_eq (items : List Expr) :
    itemsConstants items = items.flatMap constants := by
  induction items with
  | nil => rfl
  | cons item items inductionHypothesis => simp [itemsConstants, inductionHypothesis]

theorem entriesConstants_eq (entries : List (Expr × Expr)) :
    entriesConstants entries =
      entries.flatMap fun entry => entry.1.constants ++ entry.2.constants := by
  induction entries with
  | nil => rfl
  | cons entry entries inductionHypothesis => simp [entriesConstants, inductionHypothesis]

theorem itemsTokens_eq (items : List Expr) :
    itemsTokens items = listed false (items.map tokens) := by
  induction items with
  | nil => rfl
  | cons item items inductionHypothesis =>
      cases items with
      | nil => rfl
      | cons second items =>
          simp only [itemsTokens, inductionHypothesis, List.map_cons, listed]

theorem entriesTokens_eq (entries : List (Expr × Expr)) :
    entriesTokens entries = listed false (entries.map fun entry =>
      entry.1.tokens ++ .symbol .colon :: entry.2.tokens) := by
  induction entries with
  | nil => rfl
  | cons entry entries inductionHypothesis =>
      cases entries with
      | nil => rfl
      | cons second entries =>
          simp only [entriesTokens, inductionHypothesis, List.map_cons, listed]

theorem spells_itemsText
    {items : List Expr}
    (spells : ∀ item ∈ items, Spells item.text item.constants item.tokens) :
    Spells (itemsText items) (itemsConstants items) (itemsTokens items) := by
  rw [itemsText_eq, itemsConstants_eq, itemsTokens_eq]
  exact spells_intercalate spells

theorem spells_entriesText
    {entries : List (Expr × Expr)}
    (keySpells : ∀ entry ∈ entries, Spells entry.1.text entry.1.constants entry.1.tokens)
    (valueSpells : ∀ entry ∈ entries, Spells entry.2.text entry.2.constants entry.2.tokens) :
    Spells (entriesText entries) (entriesConstants entries) (entriesTokens entries) := by
  rw [entriesText_eq, entriesConstants_eq, entriesTokens_eq]
  exact spells_intercalate fun entry among =>
    (keySpells entry among).entry (valueSpells entry among)

theorem spells_linksText
    {links : List (Comparison × Expr)}
    (spells : ∀ link ∈ links, Spells link.2.text link.2.constants link.2.tokens)
    {text : List Char}
    {constants : List Literal}
    {tokens : List Token}
    (first : Spells text constants tokens) :
    Spells (text ++ linksText links) (constants ++ linksConstants links)
      (tokens ++ linksTokens links) := by
  induction links generalizing text constants tokens with
  | nil => simpa [linksText, linksConstants, linksTokens] using first
  | cons link links inductionHypothesis =>
      have operand := spells link (by simp)
      have extended : Spells (text ++ ' ' :: (link.1.text ++ ' ' :: link.2.text))
          (constants ++ link.2.constants) (tokens ++ (link.1.tokens ++ link.2.tokens)) := by
        intro rest apart
        have spelled : text ++ ' ' :: (link.1.text ++ ' ' :: link.2.text) ++ rest =
            text ++ ' ' :: (link.1.text ++ ' ' :: (link.2.text ++ rest)) := by
          simp
        rw [spelled, first.lex_append_space, lex_comparison, operand rest apart,
          inFront_inFront, inFront_inFront]
        simp
      have others := inductionHypothesis
        (fun other among => spells other (by simp [among])) extended
      simpa [linksText, linksConstants, linksTokens] using others

theorem spells_boundText
    {bound : Option Expr}
    (spells : ∀ present ∈ bound, Spells present.text present.constants present.tokens) :
    Spells (boundText bound) (boundConstants bound) (boundTokens bound) := by
  cases bound with
  | none =>
      intro rest _
      cases following : lex rest <;> simp [boundText, following] <;> rfl
  | some present => exact spells present rfl

theorem spells_stepText
    {step : Option Expr}
    (spells : ∀ present ∈ step, Spells present.text present.constants present.tokens) :
    Spells (stepText step) (boundConstants step) (stepTokens step) := by
  cases step with
  | none =>
      intro rest _
      cases following : lex rest <;> simp [stepText, following] <;> rfl
  | some present =>
      intro rest apart
      have spelled : stepText (some present) ++ rest = ':' :: (present.text ++ rest) := by
        simp [stepText]
      rw [spelled, lex_single (by decide), spells present rfl rest apart, map_cons_eq_inFront,
        inFront_inFront]
      simp [boundConstants, stepTokens, singleSymbol]

/-- The text of a writable expression spells the tokens of the expression. -/
theorem Writable.spells
    {expression : Expr}
    (writable : expression.Writable) :
    Spells expression.text expression.constants expression.tokens := by
  induction writable with
  | literal constant =>
      intro rest apart
      exact lex_literal constant apart
  | reference own =>
      intro rest apart
      exact (lex_name own.toIsName apart).trans (map_cons_eq_inFront _ _)
  | list _ items =>
      exact (spells_itemsText items).bracketed (show '[' ∈ singleCharacters by decide)
        (show ']' ∈ singleCharacters by decide)
  | dict _ _ keys values =>
      exact (spells_entriesText keys values).bracketed (show '{' ∈ singleCharacters by decide)
        (show '}' ∈ singleCharacters by decide)
  | @unary operator operand _ operandSpells =>
      intro rest _
      have spelled : (Expr.unary operator operand).text ++ rest =
          '(' :: (operator.text ++ (operand.text ++ ')' :: rest)) := by simp [text]
      rw [spelled, lex_single (by decide), lex_unaryOperator,
        operandSpells.lex_append_single (by decide), map_cons_eq_inFront, inFront_inFront,
        inFront_inFront]
      simp [constants, tokens, singleSymbol]
  | @binary operator left right _ _ leftSpells rightSpells =>
      intro rest _
      have spelled : (Expr.binary operator left right).text ++ rest =
          '(' :: (left.text ++ ' ' :: (operator.text ++ ' ' :: (right.text ++ ')' :: rest))) := by
        simp [text]
      rw [spelled, lex_single (by decide), leftSpells.lex_append_space, lex_binaryOperator,
        rightSpells.lex_append_single (by decide), map_cons_eq_inFront, inFront_inFront,
        inFront_inFront, inFront_inFront]
      simp [constants, tokens, singleSymbol]
  | @comparison first links _ _ _ firstSpells linksSpell =>
      intro rest _
      have spelled : (Expr.comparison first links).text ++ rest =
          '(' :: (first.text ++ linksText links ++ ')' :: rest) := by simp [text]
      rw [spelled, lex_single (by decide),
        (spells_linksText linksSpell firstSpells).lex_append_single (by decide),
        map_cons_eq_inFront, inFront_inFront]
      simp [constants, tokens, singleSymbol]
  | @conditional condition consequence alternative _ _ _ conditionSpells consequenceSpells
      alternativeSpells =>
      intro rest _
      have spelled : (Expr.conditional condition consequence alternative).text ++ rest =
          '(' :: (consequence.text ++ (" if ".toList ++ (condition.text ++
            (" else ".toList ++ (alternative.text ++ ')' :: rest))))) := by simp [text]
      rw [spelled, lex_single (by decide), consequenceSpells _ (startsApart_if _), lex_if,
        conditionSpells _ (startsApart_else _), lex_else,
        alternativeSpells.lex_append_single (by decide), map_cons_eq_inFront]
      simp [constants, tokens, singleSymbol]
  | @call name arguments own _ argumentsSpell =>
      intro rest _
      have spelled : (Expr.call name arguments).text ++ rest =
          name.toList ++ '(' :: (itemsText arguments ++ ')' :: rest) := by simp [text]
      rw [spelled, lex_name own.toIsName (startsApart_single (by decide) _),
        lex_single (by decide), (spells_itemsText argumentsSpell).lex_append_single (by decide),
        map_cons_eq_inFront, map_cons_eq_inFront]
      simp [constants, tokens, singleSymbol]
  | @method receiver name arguments _ isName _ receiverSpells argumentsSpell =>
      intro rest _
      have spelled : (Expr.method receiver name arguments).text ++ rest =
          receiver.text ++ '.' :: (name.toList ++ '(' :: (itemsText arguments ++ ')' :: rest)) := by
        simp [text]
      have noDigit : ∀ following ∈
          (name.toList ++ '(' :: (itemsText arguments ++ ')' :: rest)).head?,
          following.isDigit = false := by
        intro following isFirst
        exact (startsApart_dot isName.isWord).2 following isFirst rfl
      rw [spelled, receiverSpells _ (startsApart_dot isName.isWord), lex_dot noDigit,
        lex_name isName (startsApart_single (by decide) _), lex_single (by decide),
        (spells_itemsText argumentsSpell).lex_append_single (by decide)]
      simp [constants, tokens, singleSymbol]
  | @index collection position _ _ collectionSpells positionSpells =>
      intro rest _
      have spelled : (Expr.index collection position).text ++ rest =
          collection.text ++ '[' :: (position.text ++ ']' :: rest) := by simp [text]
      rw [spelled, collectionSpells.lex_append_single (by decide),
        positionSpells.lex_append_single (by decide), inFront_inFront]
      simp [constants, tokens, singleSymbol]
  | @slice collection start stop step _ _ _ _ collectionSpells startSpells stopSpells
      stepSpells =>
      intro rest _
      have spelled : (Expr.slice collection start stop step).text ++ rest =
          collection.text ++ '[' :: (boundText start ++ ':' :: (boundText stop ++
            (stepText step ++ ']' :: rest))) := by simp [text]
      have apart : StartsApart (stepText step ++ ']' :: rest) := by
        cases step with
        | none => exact startsApart_single (by decide) rest
        | some present => exact startsApart_single (by decide) _
      rw [spelled, collectionSpells.lex_append_single (by decide),
        (spells_boundText startSpells).lex_append_single (by decide),
        spells_boundText stopSpells _ apart,
        (spells_stepText stepSpells).lex_append_single (by decide)]
      simp [constants, tokens, singleSymbol]

end Expr
end Expression
end TemplatedMarkup
