import TemplatedMarkup.Proofs.Expression.Spelling

/-!
# The grammar of expressions

Which tokens stand for which tree, without a parser.  A phrase is a stretch of tokens with its
tree and with the number of nesting levels that are open at once in it.  Phrases are derived for
a form; the forms are ordered from the loosest to the tightest, and a tighter form on its own is
also a looser one.
-/

namespace TemplatedMarkup
namespace Expression

/-- The forms of the grammar, from the loosest to the tightest. -/
inductive Form where
  | expression
  | disjunction
  | conjunction
  | negation
  | comparison
  | sum
  | product
  | signed
  | power
  | trailers
  | atom
deriving DecidableEq

/-- The form that a form can consist of alone, without a further nesting level. -/
def Form.tighter : Form → Option Form
  | .expression => none
  | .disjunction => some .conjunction
  | .conjunction => some .negation
  | .negation => some .comparison
  | .comparison => some .sum
  | .sum => some .product
  | .product => some .signed
  | .signed => some .power
  | .power => some .trailers
  | .trailers => some .atom
  | .atom => none

/-- The place of a form in the order, the loosest first. -/
def Form.rank : Form → Nat
  | .expression => 0
  | .disjunction => 1
  | .conjunction => 2
  | .negation => 3
  | .comparison => 4
  | .sum => 5
  | .product => 6
  | .signed => 7
  | .power => 8
  | .trailers => 9
  | .atom => 10

/-- The operators that join phrases of a form, grouped from the left. -/
def Form.operators : Form → List BinaryOperator
  | .disjunction => [.or]
  | .conjunction => [.and]
  | .sum => [.add, .subtract]
  | .product => [.multiply, .divide, .floorDivide, .modulo]
  | _ => []

/-- The constant that a token is on its own, strings apart. -/
def Token.constant? : Token → Option Literal
  | .int value => some (.int value)
  | .float value => some (.float value)
  | .symbol .trueKeyword => some (.bool true)
  | .symbol .falseKeyword => some (.bool false)
  | .symbol .noneKeyword => some .none
  | _ => none

/-- A stretch of tokens, the tree it stands for, and how many levels are open in it at once. -/
structure Phrase where
  /-- The tokens. -/
  tokens : List Token
  /-- The tree. -/
  tree : Expr
  /-- The largest number of levels that are open at once. -/
  levels : Nat

/-- The largest number of a list, and zero for none. -/
def deepest (levels : List Nat) : Nat :=
  levels.foldr max 0

theorem deepest_le_iff
    {levels : List Nat}
    {bound : Nat} :
    deepest levels ≤ bound ↔ ∀ level ∈ levels, level ≤ bound := by
  induction levels with
  | nil => simp [deepest]
  | cons level levels inductionHypothesis =>
      simp only [deepest, List.foldr_cons, Nat.max_le, List.forall_mem_cons] at *
      rw [inductionHypothesis]

namespace Phrase

/-- An operator between two phrases. -/
def joined
    (operator : BinaryOperator)
    (left right : Phrase) : Phrase where
  tokens := left.tokens ++ .symbol operator.symbol :: right.tokens
  tree := .binary operator left.tree right.tree
  levels := max left.levels right.levels

/-- An operator before a phrase, which stands one level deeper. -/
def under
    (operator : UnaryOperator)
    (operand : Phrase) : Phrase where
  tokens := .symbol operator.symbol :: operand.tokens
  tree := .unary operator operand.tree
  levels := operand.levels + 1

/-- A sum and a chain of comparisons behind it. -/
def chained
    (first : Phrase)
    (links : List (Comparison × Phrase)) : Phrase where
  tokens := first.tokens ++ links.flatMap fun link => link.1.tokens ++ link.2.tokens
  tree := .comparison first.tree (links.map fun link => (link.1, link.2.tree))
  levels := max first.levels (deepest (links.map fun link => link.2.levels))

/-- Arguments between parentheses. -/
def argumentTokens
    (trailing : Bool)
    (arguments : List Phrase) : List Token :=
  .symbol .leftParen :: listed trailing (arguments.map tokens) ++ [.symbol .rightParen]

/-- A key, a colon and a value. -/
def entryTokens (entry : Phrase × Phrase) : List Token :=
  entry.1.tokens ++ .symbol .colon :: entry.2.tokens

/-- A slice of a subject, with a second colon or without. -/
def sliced
    (subject : Phrase)
    (start stop step : Option Phrase)
    (secondColon : Bool) : Phrase where
  tokens := subject.tokens ++ .symbol .leftBracket :: start.elim [] tokens ++ .symbol .colon ::
    stop.elim [] tokens ++ (if secondColon then [.symbol .colon] else []) ++
    step.elim [] tokens ++ [.symbol .rightBracket]
  tree := .slice subject.tree (start.map tree) (stop.map tree) (step.map tree)
  levels := max subject.levels (deepest ([start, stop, step].map (Option.elim · 0 levels)))

end Phrase

/-- The phrases of every form. -/
inductive Derives : Form → Phrase → Prop where
  /-- An expression opens a level. -/
  | whole {body : Phrase} :
      Derives .disjunction body →
      Derives .expression ⟨body.tokens, body.tree, body.levels + 1⟩
  /-- What an `else` leads to is again a whole expression. -/
  | conditional {consequence condition alternative : Phrase} :
      Derives .disjunction consequence → Derives .disjunction condition →
      Derives .expression alternative →
      Derives .expression
        ⟨consequence.tokens ++ .symbol .ifKeyword :: condition.tokens ++
            .symbol .elseKeyword :: alternative.tokens,
          .conditional condition.tree consequence.tree alternative.tree,
          max (max consequence.levels condition.levels) alternative.levels + 1⟩
  /-- A tighter form on its own. -/
  | alone {form tighter : Form} {body : Phrase} :
      form.tighter = some tighter → Derives tighter body → Derives form body
  /-- A chain of operands goes on with a further one. -/
  | joined {form tighter : Form} {operator : BinaryOperator} {left right : Phrase} :
      form.tighter = some tighter → operator ∈ form.operators →
      Derives form left → Derives tighter right →
      Derives form (.joined operator left right)
  /-- A `not` before a negation. -/
  | not {operand : Phrase} :
      Derives .negation operand → Derives .negation (.under .not operand)
  /-- All comparisons of a row are one chain. -/
  | chained {first : Phrase} {links : List (Comparison × Phrase)} :
      links ≠ [] → Derives .sum first → (∀ link ∈ links, Derives .sum link.2) →
      Derives .comparison (.chained first links)
  /-- A sign before a signed operand. -/
  | sign {operator : UnaryOperator} {operand : Phrase} :
      operator ≠ .not → Derives .signed operand → Derives .signed (.under operator operand)
  /-- The exponent of a power stands one level deeper and may carry a sign. -/
  | power {base exponent : Phrase} :
      Derives .trailers base → Derives .signed exponent →
      Derives .power
        ⟨base.tokens ++ .symbol .doubleStar :: exponent.tokens,
          .binary .power base.tree exponent.tree,
          max base.levels (exponent.levels + 1)⟩
  /-- One item of a subject. -/
  | index {subject position : Phrase} :
      Derives .trailers subject → Derives .expression position →
      Derives .trailers
        ⟨subject.tokens ++ .symbol .leftBracket :: position.tokens ++ [.symbol .rightBracket],
          .index subject.tree position.tree,
          max subject.levels position.levels⟩
  /-- A slice; any of its bounds may be missing, and so may a second colon without a step. -/
  | slice {subject : Phrase} {start stop step : Option Phrase} {secondColon : Bool} :
      Derives .trailers subject →
      (∀ bound ∈ start, Derives .expression bound) →
      (∀ bound ∈ stop, Derives .expression bound) →
      (∀ bound ∈ step, Derives .expression bound) →
      (secondColon = false → step = none) →
      Derives .trailers (subject.sliced start stop step secondColon)
  /-- A call of a method, of any name. -/
  | method {receiver : Phrase} {name : String} {arguments : List Phrase} {trailing : Bool} :
      Derives .trailers receiver → (∀ argument ∈ arguments, Derives .expression argument) →
      Derives .trailers
        ⟨receiver.tokens ++ .symbol .dot :: .name name ::
            Phrase.argumentTokens trailing arguments,
          .method receiver.tree name (arguments.map Phrase.tree),
          max receiver.levels (deepest (arguments.map Phrase.levels))⟩
  /-- A constant other than a string. -/
  | constant {token : Token} {value : Literal} :
      token.constant? = some value → Derives .atom ⟨[token], .literal value, 0⟩
  /-- Strings that follow each other are one string. -/
  | strings {texts : List String} :
      texts ≠ [] →
      Derives .atom ⟨texts.map .str, .literal (.str (String.join texts)), 0⟩
  /-- A name that is not reserved. -/
  | reference {name : String} :
      isReserved name = false → Derives .atom ⟨[.name name], .variable name, 0⟩
  /-- A call of a function whose name is not reserved. -/
  | call {name : String} {arguments : List Phrase} {trailing : Bool} :
      isReserved name = false → (∀ argument ∈ arguments, Derives .expression argument) →
      Derives .atom
        ⟨.name name :: Phrase.argumentTokens trailing arguments,
          .call name (arguments.map Phrase.tree),
          deepest (arguments.map Phrase.levels)⟩
  /-- An expression between parentheses. -/
  | parenthesized {body : Phrase} :
      Derives .expression body →
      Derives .atom
        ⟨.symbol .leftParen :: body.tokens ++ [.symbol .rightParen], body.tree, body.levels⟩
  /-- A list display. -/
  | list {items : List Phrase} {trailing : Bool} :
      (∀ item ∈ items, Derives .expression item) →
      Derives .atom
        ⟨.symbol .leftBracket :: listed trailing (items.map Phrase.tokens) ++
            [.symbol .rightBracket],
          .list (items.map Phrase.tree),
          deepest (items.map Phrase.levels)⟩
  /-- A dict display. -/
  | dict {entries : List (Phrase × Phrase)} {trailing : Bool} :
      (∀ entry ∈ entries, Derives .expression entry.1) →
      (∀ entry ∈ entries, Derives .expression entry.2) →
      Derives .atom
        ⟨.symbol .leftBrace :: listed trailing (entries.map Phrase.entryTokens) ++
            [.symbol .rightBrace],
          .dict (entries.map fun entry => (entry.1.tree, entry.2.tree)),
          deepest (entries.map fun entry => max entry.1.levels entry.2.levels)⟩

/-! ## Looser forms -/

theorem Form.rank_of_tighter
    {form tighter : Form}
    (next : form.tighter = some tighter) :
    tighter.rank = form.rank + 1 := by
  cases form <;> cases next <;> rfl

/-- Every form but the loosest and the tightest can consist of another one alone. -/
theorem Form.exists_tighter
    {form tight : Form}
    (inside : 0 < form.rank)
    (looser : form.rank < tight.rank) :
    ∃ next, form.tighter = some next := by
  cases form with
  | expression => contradiction
  | atom => cases tight <;> simp [rank] at looser
  | _ => exact ⟨_, rfl⟩

theorem Form.eq_of_rank_eq
    {form other : Form}
    (same : form.rank = other.rank) :
    form = other := by
  cases form <;> cases other <;> first | rfl | simp [rank] at same

/-- A phrase of a form is one of every looser form, whole expressions apart. -/
theorem Derives.loosen
    {form tight : Form}
    {body : Phrase}
    (derives : Derives tight body)
    (inside : 0 < form.rank)
    (looser : form.rank ≤ tight.rank) :
    Derives form body := by
  induction distance : tight.rank - form.rank generalizing form with
  | zero => exact Form.eq_of_rank_eq (show form.rank = tight.rank by omega) ▸ derives
  | succ distance inductionHypothesis =>
      obtain ⟨next, isNext⟩ := Form.exists_tighter inside
        (show form.rank < tight.rank by omega)
      have rank := Form.rank_of_tighter isNext
      exact .alone isNext (inductionHypothesis (by omega) (by omega) (by omega))

/-! ## How a phrase starts -/

/-- Whether a token can be the first one of an operand without an operator in front. -/
def Token.opensOperand : Token → Bool
  | .symbol .leftParen | .symbol .leftBracket | .symbol .leftBrace | .symbol .trueKeyword
  | .symbol .falseKeyword | .symbol .noneKeyword => true
  | .symbol _ => false
  | _ => true

/-- Tokens that start like an operand. -/
def OpensOperand (tokens : List Token) : Prop :=
  ∃ first ∈ tokens.head?, first.opensOperand = true

/-- The operators that may stand in front of an operand. -/
def leadingOperators : List Symbol :=
  [.notKeyword, .minus, .plus]

/-- Tokens that start like an operand or with one of some operators. -/
def OpensWith
    (operators : List Symbol)
    (tokens : List Token) : Prop :=
  ∃ first ∈ tokens.head?,
    first.opensOperand = true ∨ ∃ kind ∈ operators, first = .symbol kind

theorem OpensOperand.opensWith
    {tokens : List Token}
    (opens : OpensOperand tokens)
    (operators : List Symbol) :
    OpensWith operators tokens := by
  obtain ⟨first, isFirst, opening⟩ := opens
  exact ⟨first, isFirst, .inl opening⟩

namespace OpensWith

variable
  {operators : List Symbol}
  {tokens : List Token}

/-- Tokens that start so start with no other symbol that an operand cannot start with. -/
theorem head?_append_ne
    (opens : OpensWith operators tokens)
    (kind : Symbol)
    (closed : (Token.symbol kind).opensOperand = false)
    (other : kind ∉ operators)
    (rest : List Token) :
    (tokens ++ rest).head? ≠ some (.symbol kind) := by
  obtain ⟨first, isFirst, opening⟩ := opens
  intro found
  rw [List.head?_append, isFirst, Option.some_or] at found
  obtain rfl := Option.some.inj found
  rcases opening with opening | ⟨leading, among, same⟩
  · rw [closed] at opening
    contradiction
  · obtain rfl := Token.symbol.inj same
    exact other among

theorem length_pos (opens : OpensWith operators tokens) : 0 < tokens.length := by
  obtain ⟨first, isFirst, -⟩ := opens
  cases tokens with
  | nil => simp at isFirst
  | cons first others => simp

theorem append
    (opens : OpensWith operators tokens)
    (rest : List Token) :
    OpensWith operators (tokens ++ rest) := by
  obtain ⟨first, isFirst, opening⟩ := opens
  exact ⟨first, by rw [List.head?_append, isFirst]; rfl, opening⟩

theorem mono
    {others : List Symbol}
    (opens : OpensWith operators tokens)
    (included : operators ⊆ others) :
    OpensWith others tokens := by
  obtain ⟨first, isFirst, opening⟩ := opens
  exact ⟨first, isFirst, opening.imp id fun ⟨kind, among, same⟩ => ⟨kind, included among, same⟩⟩

end OpensWith

/-- The operators that a phrase of a form may start with. -/
def Form.opening : Form → List Symbol
  | .expression | .disjunction | .conjunction | .negation => leadingOperators
  | .comparison | .sum | .product | .signed => [.minus, .plus]
  | .power | .trailers | .atom => []

theorem Form.opening_subset_of_tighter
    {form tighter : Form}
    (next : form.tighter = some tighter) :
    tighter.opening ⊆ form.opening := by
  cases form <;> cases next <;> simp [opening, leadingOperators]

theorem Token.opensOperand_of_constant?
    {token : Token}
    {value : Literal}
    (isConstant : token.constant? = some value) :
    token.opensOperand = true := by
  cases token with
  | symbol kind => cases kind <;> first | rfl | contradiction
  | _ => rfl

/-- A phrase starts like an operand or with an operator of its form. -/
theorem Derives.opensWith
    {form : Form}
    {phrase : Phrase}
    (derives : Derives form phrase) :
    OpensWith form.opening phrase.tokens := by
  induction derives with
  | whole _ body => exact body
  | conditional _ _ _ consequence _ _ =>
      simpa [Form.opening] using consequence.append _
  | alone next _ body => exact body.mono (Form.opening_subset_of_tighter next)
  | joined _ _ _ _ left _ => exact left.append _
  | not _ _ => exact ⟨_, rfl, .inr ⟨.notKeyword, by decide, rfl⟩⟩
  | chained _ _ _ first _ => exact (first.append _).mono (by simp [Form.opening])
  | @sign operator _ isSign _ _ =>
      refine ⟨_, rfl, .inr ⟨operator.symbol, ?_, rfl⟩⟩
      cases operator with
      | not => contradiction
      | _ => decide
  | power _ _ base _ => exact base.append _
  | index _ _ subject _ => simpa using subject.append _
  | slice _ _ _ _ _ subject _ _ _ => simpa [Phrase.sliced] using subject.append _
  | method _ _ receiver _ => simpa using receiver.append _
  | constant isConstant =>
      exact ⟨_, rfl, .inl (Token.opensOperand_of_constant? isConstant)⟩
  | @strings texts nonempty =>
      cases texts with
      | nil => contradiction
      | cons first others => exact ⟨_, rfl, .inl rfl⟩
  | _ => exact ⟨_, rfl, .inl rfl⟩

end Expression
end TemplatedMarkup
