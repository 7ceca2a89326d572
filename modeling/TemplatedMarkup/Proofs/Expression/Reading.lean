import TemplatedMarkup.Expression.Parser
import TemplatedMarkup.Proofs.Expression.Grammar
import TemplatedMarkup.Proofs.Expression.Run

/-!
# Reading a form

`Reads` says what a parser takes off the front of any tokens that start with given ones: a value,
at the price of a number of nesting levels, provided that the token behind does not bind as
tightly as the parser looks for.  A form that a tight parser reads is read by every looser one,
and two forms with an operator between them are read by the parser of that operator.
-/

namespace TemplatedMarkup
namespace Expression

open TokenParser

variable {Result : Type}

/-- How tightly a symbol behind an expression binds to it. -/
def Symbol.binding : Symbol → Nat
  | .leftParen => 9
  | .leftBracket | .dot => 8
  | .doubleStar => 7
  | .star | .slash | .doubleSlash | .percent => 6
  | .plus | .minus => 5
  | .equal | .notEqual | .less | .lessEqual | .greater | .greaterEqual | .inKeyword
  | .notKeyword => 4
  | .andKeyword => 3
  | .orKeyword => 2
  | .ifKeyword => 1
  | _ => 0

/-- How tightly the token behind an expression binds to it; one that ends it does not at all. -/
def binding : Option Token → Nat
  | some (.str _) => 9
  | some (.symbol kind) => kind.binding
  | _ => 0

/-- Whether a symbol closes a bracket. -/
def Symbol.closes : Symbol → Bool
  | .rightParen | .rightBracket | .rightBrace => true
  | _ => false

theorem Symbol.binding_of_closes
    {kind : Symbol}
    (closes : kind.closes = true) :
    kind.binding = 0 := by
  cases kind <;> first | rfl | contradiction

theorem Symbol.opensOperand_of_closes
    {kind : Symbol}
    (closes : kind.closes = true) :
    (Token.symbol kind).opensOperand = false := by
  cases kind <;> first | rfl | contradiction

theorem Symbol.notMem_leadingOperators_of_closes
    {kind : Symbol}
    (closes : kind.closes = true) :
    kind ∉ leadingOperators := by
  cases kind <;> first | decide | contradiction

/-- Taking given tokens off the front gives a value and needs a number of levels. -/
def Reads
    (parser : TokenParser Result)
    (tightness levels needed : Nat)
    (tokens : List Token)
    (value : Result) : Prop :=
  ∀ rest : List Token, binding rest.head? < tightness →
    parser.run (tokens ++ rest) = limited needed levels (.ok (value, rest))

/-- A token that binds more loosely than a symbol is another one. -/
theorem ne_of_binding_lt
    {found : Option Token}
    (kind : Symbol)
    (looser : binding found < kind.binding) :
    found ≠ some (.symbol kind) := by
  rintro rfl
  exact absurd looser (Nat.lt_irrefl _)

theorem productOperator_eq_none
    {found : Option Token}
    (looser : binding found < 6) :
    productOperator found = none := by
  unfold productOperator
  split <;> first | rfl | exact absurd looser (by decide)

theorem sumOperator_eq_none
    {found : Option Token}
    (looser : binding found < 5) :
    sumOperator found = none := by
  unfold sumOperator
  split <;> first | rfl | exact absurd looser (by decide)

theorem comparisonOperator_eq_none
    {found : Option Token}
    (looser : binding found < 4) :
    comparisonOperator found = none := by
  unfold comparisonOperator
  split <;> first | rfl | exact absurd looser (by decide)

theorem andOperator_eq_none
    {found : Option Token}
    (looser : binding found < 3) :
    andOperator found = none := by
  unfold andOperator
  split <;> first | rfl | exact absurd looser (by decide)

theorem orOperator_eq_none
    {found : Option Token}
    (looser : binding found < 2) :
    orOperator found = none := by
  unfold orOperator
  split <;> first | rfl | exact absurd looser (by decide)

/-- One operator of a chain and the operand behind it. -/
def chainStep
    (operator : Option Token → Option BinaryOperator)
    (operand : TokenParser Expr)
    (left : Expr) : TokenParser (Option Expr) := do
  match operator (← peek) with
  | some symbol =>
      let _ ← next
      return some (.binary symbol left (← operand))
  | none => return none

theorem leftChain_eq
    (operator : Option Token → Option BinaryOperator)
    (operand : TokenParser Expr) :
    leftChain operator operand = (operand >>= repeatFrom (chainStep operator operand)) := rfl

section Chain

variable
  {operator : Option Token → Option BinaryOperator}
  {operand : TokenParser Expr}
  {tightness inner levels needed : Nat}
  {tokens : List Token}
  {value : Expr}

theorem run_chainStep_of_none
    {rest : List Token}
    (ends : operator rest.head? = none)
    (left : Expr) :
    (chainStep operator operand left).run rest = .ok (none, rest) := by
  simp [chainStep, ends]

theorem run_chainStep_of_some
    {kind : Symbol}
    {symbol : BinaryOperator}
    {rest : List Token}
    (selects : operator (some (.symbol kind)) = some symbol)
    (reads : Reads operand inner levels needed tokens value)
    (apart : binding rest.head? < inner)
    (left : Expr) :
    (chainStep operator operand left).run (.symbol kind :: tokens ++ rest) =
      limited needed levels (.ok (some (.binary symbol left value), rest)) := by
  simp [chainStep, selects, reads rest apart]

/-- An operand with no operator behind it is a whole chain. -/
theorem Reads.leftChain
    (reads : Reads operand inner levels needed tokens value)
    (looser : tightness ≤ inner)
    (ends : ∀ {found}, binding found < tightness → operator found = none) :
    Reads (leftChain operator operand) tightness levels needed tokens value := by
  intro rest apart
  simp only [leftChain_eq, run_bind, reads rest (Nat.lt_of_lt_of_le apart looser),
    resume_limited, resume_ok]
  rw [run_repeatFrom_of_none (run_chainStep_of_none (ends apart) value)]

end Chain

section Passing

variable
  {levels needed : Nat}
  {nested : Nested}
  {tokens : List Token}
  {value : Expr}

/-- Trailers with no power behind them are read as a power. -/
theorem Reads.power
    (reads : Reads (trailers nested) 8 levels needed tokens value) :
    Reads (power nested) 7 levels needed tokens value := by
  intro rest apart
  simp [Expression.power, reads rest (Nat.lt_succ_of_lt apart),
    run_eat_of_ne (ne_of_binding_lt .doubleStar apart)]

/-- A power with no sign in front is read as a signed operand. -/
theorem Reads.signed
    (reads : Reads (Expression.power nested) 7 levels needed tokens value)
    (opens : OpensWith [] tokens) :
    Reads (signed nested) 7 levels needed tokens value := by
  intro rest apart
  have noMinus := opens.head?_append_ne .minus rfl (by simp) rest
  have noPlus := opens.head?_append_ne .plus rfl (by simp) rest
  simp [Expression.signed, reads rest apart, run_eat_of_ne noMinus, run_eat_of_ne noPlus]

/-- A signed operand is read as a product. -/
theorem Reads.product
    (reads : Reads (Expression.signed nested) 7 levels needed tokens value) :
    Reads (product nested) 6 levels needed tokens value :=
  reads.leftChain (by decide) productOperator_eq_none

/-- A product is read as a sum. -/
theorem Reads.sum
    (reads : Reads (Expression.product nested) 6 levels needed tokens value) :
    Reads (sum nested) 5 levels needed tokens value :=
  reads.leftChain (by decide) sumOperator_eq_none

/-- No comparison is taken where none follows. -/
theorem run_comparisonLink_of_binding_lt
    {rest : List Token}
    (apart : binding rest.head? < 4) :
    comparisonLink.run rest = .ok (none, rest) := by
  simp [comparisonLink, comparisonOperator_eq_none apart, ne_of_binding_lt .notKeyword apart]

/-- A sum is read as a comparison chain without links. -/
theorem Reads.comparisonChain
    (reads : Reads (Expression.sum nested) 5 levels needed tokens value) :
    Reads (comparisonChain nested) 4 levels needed tokens value := by
  intro rest apart
  simp only [Expression.comparisonChain, run_bind,
    reads rest (Nat.lt_of_lt_of_le apart (by decide)), resume_limited, resume_ok]
  rw [@run_repeatFrom_of_none _ _ _ _ rest]
  · simp
  · simp [run_comparisonLink_of_binding_lt apart]

/-- A comparison chain is read as a negation without `not`. -/
theorem Reads.negation
    (reads : Reads (Expression.comparisonChain nested) 4 levels needed tokens value)
    (opens : OpensWith [.minus, .plus] tokens) :
    Reads (negation nested) 4 levels needed tokens value := by
  intro rest apart
  have noNot := opens.head?_append_ne .notKeyword rfl (by decide) rest
  simp [Expression.negation, reads rest apart, run_eat_of_ne noNot]

/-- A negation is read as a conjunction. -/
theorem Reads.conjunction
    (reads : Reads (Expression.negation nested) 4 levels needed tokens value) :
    Reads (conjunction nested) 3 levels needed tokens value :=
  reads.leftChain (by decide) andOperator_eq_none

/-- A conjunction is read as a disjunction. -/
theorem Reads.disjunction
    (reads : Reads (Expression.conjunction nested) 3 levels needed tokens value) :
    Reads (disjunction nested) 2 levels needed tokens value :=
  reads.leftChain (by decide) orOperator_eq_none

/-- A disjunction is read as a conditional without a condition. -/
theorem Reads.conditional
    (reads : Reads (Expression.disjunction nested) 2 levels needed tokens value) :
    Reads (conditional nested) 1 levels needed tokens value := by
  intro rest apart
  simp [Expression.conditional, reads rest (Nat.lt_of_lt_of_le apart (by decide)),
    run_eat_of_ne (ne_of_binding_lt .ifKeyword apart)]

/-- Trailers with nothing looser around them are read as a whole conditional. -/
theorem Reads.alone
    (reads : Reads (trailers nested) 8 levels needed tokens value)
    (opens : OpensOperand tokens) :
    Reads (Expression.conditional nested) 1 levels needed tokens value := by
  have sum := (reads.power.signed (opens.opensWith _)).product.sum
  exact (sum.comparisonChain.negation (opens.opensWith _)).conjunction.disjunction.conditional

end Passing

section Levels

variable
  {needed : Nat}
  {tokens : List Token}
  {value : Expr}

/-- A form that stands one level deeper needs one level more. -/
theorem reads_expression
    (reads : ∀ levels, Reads (conditional (withLevels levels)) 1 levels needed tokens value)
    (levels : Nat) :
    Reads (withLevels levels).expression 1 levels (needed + 1) tokens value := by
  intro rest apart
  cases levels with
  | zero => simp [withLevels]
  | succ levels => simpa [withLevels] using reads levels rest apart

theorem reads_nested_negation
    (reads : ∀ levels, Reads (negation (withLevels levels)) 4 levels needed tokens value)
    (levels : Nat) :
    Reads (withLevels levels).negation 4 levels (needed + 1) tokens value := by
  intro rest apart
  cases levels with
  | zero => simp [withLevels]
  | succ levels => simpa [withLevels] using reads levels rest apart

theorem reads_nested_signed
    (reads : ∀ levels, Reads (signed (withLevels levels)) 7 levels needed tokens value)
    (levels : Nat) :
    Reads (withLevels levels).signed 7 levels (needed + 1) tokens value := by
  intro rest apart
  cases levels with
  | zero => simp [withLevels]
  | succ levels => simpa [withLevels] using reads levels rest apart

end Levels

/-- Tokens that are read as a whole expression are parsed as the expression. -/
theorem parseTokens_of_reads
    {tokens : List Token}
    {value : Expr}
    {needed : Nat}
    (reads : Reads (withLevels maxNesting).expression 1 maxNesting needed tokens value) :
    parseTokens tokens = limited needed maxNesting (.ok value) := by
  have read := reads [] Nat.zero_lt_one
  rw [List.append_nil] at read
  unfold parseTokens runAll Expression.expression
  rw [read]
  unfold limited
  by_cases fits : needed ≤ maxNesting
  · rw [if_pos fits, if_pos fits]
  · rw [if_neg fits, if_neg fits]

/-! ## Lists of forms -/

section Separated

variable
  {Item : Type}
  {parser : TokenParser Result}
  {closing : Symbol}
  {levels : Nat}
  {tokens : Item → List Token}
  {value : Item → Result}
  {needed : Item → Nat}

theorem run_separatedStep_finished
    (values : List Result)
    (rest : List Token) :
    (separatedStep parser closing (values, true)).run rest = .ok (none, rest) := by
  simp [separatedStep]

theorem run_separatedStep_closing
    (state : List Result × Bool)
    (rest : List Token) :
    (separatedStep parser closing state).run (.symbol closing :: rest) =
      .ok (none, .symbol closing :: rest) := by
  simp [separatedStep]

/-- An item is read, and so is a comma behind it. -/
theorem run_separatedStep_item
    {item : Item}
    {rest : List Token}
    (closes : closing.closes = true)
    (reads : Reads parser 1 levels (needed item) (tokens item) (value item))
    (opens : OpensWith leadingOperators (tokens item))
    (apart : binding rest.head? = 0)
    (values : List Result) :
    (separatedStep parser closing (values, false)).run (tokens item ++ rest) =
      limited (needed item) levels
        (resume ((eat .comma).run rest) fun comma =>
          Pure.pure (some (value item :: values, !comma))) := by
  have other := opens.head?_append_ne closing (Symbol.opensOperand_of_closes closes)
    (Symbol.notMem_leadingOperators_of_closes closes) rest
  simp only [separatedStep, Bool.false_or, decide_eq_true_eq, run_bind, run_peek, resume_ok,
    if_neg other, reads rest (by omega), resume_limited]

/-- From any items read before, the following ones are read up to the closing symbol. -/
theorem run_repeatFrom_separatedStep
    {items : List Item}
    (closes : closing.closes = true)
    (reads : ∀ item ∈ items, Reads parser 1 levels (needed item) (tokens item) (value item))
    (opens : ∀ item ∈ items, OpensWith leadingOperators (tokens item))
    (trailing : Bool)
    (values : List Result)
    (rest : List Token) :
    ∃ finished, (repeatFrom (separatedStep parser closing) (values, false)).run
        (listed trailing (items.map tokens) ++ .symbol closing :: rest) =
      limited (deepest (items.map needed)) levels
        (.ok (((items.map value).reverse ++ values, finished), .symbol closing :: rest)) := by
  induction items generalizing values with
  | nil =>
      refine ⟨false, ?_⟩
      simp [listed, deepest, run_repeatFrom_of_none (run_separatedStep_closing _ _)]
  | cons item items inductionHypothesis =>
      have readsItem := reads item (by simp)
      have opensItem := opens item (by simp)
      have taken := opensItem.length_pos
      have stepped (others : List Token) (apart : binding others.head? = 0) :=
        run_separatedStep_item closes readsItem opensItem apart values
      cases items with
      | nil =>
          cases trailing with
          | false =>
              have noComma : closing ≠ .comma := by
                rintro rfl
                contradiction
              have read := stepped (.symbol closing :: rest) (Symbol.binding_of_closes closes)
              rw [run_eat_symbol_of_ne noComma] at read
              have ended := run_repeatFrom_of_limited read (by simpa using taken)
              refine ⟨true, ?_⟩
              simpa [listed, deepest, run_repeatFrom_of_none (run_separatedStep_finished _ _)]
                using ended
          | true =>
              have read := stepped (.symbol .comma :: .symbol closing :: rest) rfl
              rw [run_eat_self] at read
              have ended := run_repeatFrom_of_limited read (by
                simp only [List.length_append, List.length_cons]
                omega)
              refine ⟨false, ?_⟩
              simpa [listed, deepest, run_repeatFrom_of_none (run_separatedStep_closing _ _)]
                using ended
      | cons second items =>
          obtain ⟨finished, others⟩ := inductionHypothesis
            (fun other among => reads other (by simp [among]))
            (fun other among => opens other (by simp [among])) (value item :: values)
          have read := stepped (.symbol .comma ::
            (listed trailing ((second :: items).map tokens) ++ .symbol closing :: rest)) rfl
          rw [run_eat_self] at read
          have continued := run_repeatFrom_of_limited read (by
            simp only [List.length_append, List.length_cons]
            omega)
          have spelled : listed trailing ((item :: second :: items).map tokens) ++
              .symbol closing :: rest = tokens item ++ .symbol .comma ::
                (listed trailing ((second :: items).map tokens) ++ .symbol closing :: rest) := by
            simp [listed]
          refine ⟨finished, ?_⟩
          rw [spelled, continued]
          simp only [Bool.not_true]
          rw [others, limited_limited]
          simp [deepest]

/-- Items with commas between them are read in order, up to the closing symbol. -/
theorem run_separated
    {items : List Item}
    (closes : closing.closes = true)
    (reads : ∀ item ∈ items, Reads parser 1 levels (needed item) (tokens item) (value item))
    (opens : ∀ item ∈ items, OpensWith leadingOperators (tokens item))
    (trailing : Bool)
    (rest : List Token) :
    (separated parser closing).run
        (listed trailing (items.map tokens) ++ .symbol closing :: rest) =
      limited (deepest (items.map needed)) levels
        (.ok (items.map value, .symbol closing :: rest)) := by
  obtain ⟨finished, read⟩ := run_repeatFrom_separatedStep closes reads opens trailing [] rest
  simp [separated_eq, read]

end Separated

end Expression
end TemplatedMarkup
