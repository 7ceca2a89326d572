import TemplatedMarkup.Proofs.Expression.Reading

/-!
# Every phrase is read

A phrase of the grammar is read by the parser of its form as the tree of the phrase, and needs
exactly the levels of the phrase.  The induction follows the derivation.  Its statement,
`Form.Continues`, also covers what is not yet the end of a chain: behind the phrase the parser
goes on from its tree, so that a chain can be prolonged by one operand or trailer at a time.
-/

namespace TemplatedMarkup
namespace Expression

open TokenParser

/-! ## Atoms by their first token -/

section Atom

variable
  (nested : Nested)
  (rest : List Token)

theorem run_atom_text (text : String) :
    (atom nested).run (.str text :: rest) =
      (do return .literal (.str (← adjacentStrings text)) : TokenParser Expr).run rest := rfl

theorem run_atom_word (name : String) :
    (atom nested).run (.name name :: rest) = (nameOrCall nested name).run rest := rfl

theorem run_atom_leftParen :
    (atom nested).run (.symbol .leftParen :: rest) = (parenthesized nested).run rest := rfl

theorem run_atom_leftBracket :
    (atom nested).run (.symbol .leftBracket :: rest) = (do
      let items ← separated nested.expression .rightBracket
      expect .rightBracket "']' to close list"
      return .list items : TokenParser Expr).run rest := rfl

theorem run_atom_leftBrace :
    (atom nested).run (.symbol .leftBrace :: rest) = (do
      let entries ← separated (dictEntry nested) .rightBrace
      expect .rightBrace "'\x7d' to close dict"
      return .dict entries : TokenParser Expr).run rest := rfl

end Atom

/-- A constant is an atom of its own. -/
theorem run_atom_constant
    {token : Token}
    {value : Literal}
    (isConstant : token.constant? = some value)
    (nested : Nested)
    (rest : List Token) :
    (atom nested).run (token :: rest) = .ok (.literal value, rest) := by
  cases token with
  | str text | name text => contradiction
  | int number | float number =>
      obtain rfl := Option.some.inj isConstant
      rfl
  | symbol kind =>
      cases kind with
      | trueKeyword | falseKeyword | noneKeyword =>
          obtain rfl := Option.some.inj isConstant
          rfl
      | _ => contradiction

/-- Strings are appended where no further string follows. -/
theorem run_adjacentStrings
    (text : String)
    (others : List String)
    {rest : List Token}
    (apart : binding rest.head? < 9) :
    (adjacentStrings text).run (others.map .str ++ rest) =
      .ok (others.foldl (· ++ ·) text, rest) := by
  unfold adjacentStrings
  induction others generalizing text with
  | nil =>
      rw [List.map_nil, List.nil_append, run_repeatFrom_of_none]
      · rfl
      · cases rest with
        | nil => rfl
        | cons first rest =>
            cases first with
            | str more => exact absurd apart (Nat.lt_irrefl 9)
            | _ => rfl
  | cons other others inductionHypothesis =>
      rw [List.foldl_cons, ← inductionHypothesis]
      exact run_repeatFrom_of_some rfl (Nat.lt_succ_self _)

/-- A name that can be referred to is read as a variable where no call follows. -/
theorem run_atom_name
    {name : String}
    (own : isReserved name = false)
    (nested : Nested)
    {rest : List Token}
    (apart : binding rest.head? < 9) :
    (atom nested).run (.name name :: rest) = .ok (.variable name, rest) := by
  rw [run_atom_word]
  simp [nameOrCall, own, run_eat_of_ne (ne_of_binding_lt .leftParen apart)]

/-! ## Steps of a repetition -/

/-- One comparison and the sum behind it. -/
def linkStep
    (nested : Nested)
    (links : List (Comparison × Expr)) :
    TokenParser (Option (List (Comparison × Expr))) := do
  match ← comparisonLink with
  | some operator => return some ((operator, ← sum nested) :: links)
  | none => return none

theorem comparisonChain_eq (nested : Nested) :
    comparisonChain nested = (sum nested >>= fun first =>
      repeatFrom (linkStep nested) [] >>= fun links =>
        if links.isEmpty then Pure.pure first
        else Pure.pure (.comparison first links.reverse)) := rfl

theorem run_comparisonLink
    (operator : Comparison)
    (rest : List Token) :
    comparisonLink.run (operator.tokens ++ rest) = .ok (some operator, rest) := by
  cases operator <;> simp [comparisonLink, Comparison.tokens, comparisonOperator]

/-- One subscript or method call behind a subject. -/
def trailerStep
    (nested : Nested)
    (subject : Expr) : TokenParser (Option Expr) := do
  if ← eat .leftBracket then
    return some (← subscript nested subject)
  else if ← eat .dot then
    return some (← methodCall nested subject)
  else return none

theorem trailers_eq (nested : Nested) :
    trailers nested = (atom nested >>= repeatFrom (trailerStep nested)) := rfl

/-- Nothing but a bracket or a dot goes on from a subject. -/
theorem run_trailerStep_of_binding_lt
    {nested : Nested}
    {subject : Expr}
    {rest : List Token}
    (apart : binding rest.head? < 8) :
    (trailerStep nested subject).run rest = .ok (none, rest) := by
  simp [trailerStep, run_eat_of_ne (ne_of_binding_lt .leftBracket apart),
    run_eat_of_ne (ne_of_binding_lt .dot apart)]

/-! ## The parser of a form -/

namespace Form

/-- The parser of a form. -/
def parser (nested : Nested) : Form → TokenParser Expr
  | .expression => nested.expression
  | .disjunction => Expression.disjunction nested
  | .conjunction => Expression.conjunction nested
  | .negation => Expression.negation nested
  | .comparison => comparisonChain nested
  | .sum => Expression.sum nested
  | .product => Expression.product nested
  | .signed => Expression.signed nested
  | .power => Expression.power nested
  | .trailers => Expression.trailers nested
  | .atom => Expression.atom nested

/-- The operator that goes on with a chain of a form, as the next token tells. -/
def chainOperator : Form → Option Token → Option BinaryOperator
  | .disjunction => orOperator
  | .conjunction => andOperator
  | .sum => sumOperator
  | .product => productOperator
  | _ => fun _ => none

/-- What goes on from a phrase of a form, to a longer phrase of the form. -/
def step (nested : Nested) : Form → Expr → TokenParser (Option Expr)
  | .disjunction => chainStep orOperator (Expression.conjunction nested)
  | .conjunction => chainStep andOperator (Expression.negation nested)
  | .sum => chainStep sumOperator (Expression.product nested)
  | .product => chainStep productOperator (Expression.signed nested)
  | .trailers => trailerStep nested
  | _ => fun _ => Pure.pure none

/-- A token that binds more loosely than this ends a phrase of the form. -/
def tightness : Form → Nat
  | .expression => 1
  | .disjunction => 2
  | .conjunction => 3
  | .negation | .comparison => 4
  | .sum => 5
  | .product => 6
  | .signed | .power => 7
  | .trailers => 8
  | .atom => 9

/-- A token that binds more loosely than this ends the last part of a phrase of the form. -/
def inner : Form → Nat
  | .disjunction => 3
  | .conjunction => 4
  | .sum => 6
  | .product => 7
  | .trailers => 9
  | form => form.tightness

theorem tightness_le_inner (form : Form) : form.tightness ≤ form.inner := by
  cases form <;> decide

/-- Behind the end of a phrase nothing goes on from it. -/
theorem run_step_of_binding_lt
    {form : Form}
    {nested : Nested}
    {rest : List Token}
    (apart : binding rest.head? < form.tightness)
    (subject : Expr) :
    (form.step nested subject).run rest = .ok (none, rest) := by
  cases form with
  | disjunction => exact run_chainStep_of_none (orOperator_eq_none apart) subject
  | conjunction => exact run_chainStep_of_none (andOperator_eq_none apart) subject
  | sum => exact run_chainStep_of_none (sumOperator_eq_none apart) subject
  | product => exact run_chainStep_of_none (productOperator_eq_none apart) subject
  | trailers => exact run_trailerStep_of_binding_lt apart
  | _ => rfl

/-- The parser of a form takes a phrase off the front and goes on from its tree. -/
def Continues
    (form : Form)
    (phrase : Phrase) : Prop :=
  ∀ (levels : Nat) (rest : List Token), binding rest.head? < form.inner →
    (form.parser (withLevels levels)).run (phrase.tokens ++ rest) =
      limited phrase.levels levels
        ((repeatFrom (form.step (withLevels levels)) phrase.tree).run rest)

namespace Continues

variable
  {form : Form}
  {phrase : Phrase}

/-- Behind its end, a phrase is all that is read. -/
theorem reads
    (continues : form.Continues phrase)
    (levels : Nat) :
    Reads (form.parser (withLevels levels)) form.tightness levels phrase.levels phrase.tokens
      phrase.tree := by
  intro rest apart
  rw [continues levels rest (Nat.lt_of_lt_of_le apart form.tightness_le_inner),
    run_repeatFrom_of_none (run_step_of_binding_lt apart phrase.tree)]

/-- A form that is never prolonged goes on from a phrase when it reads it. -/
theorem of_reads
    (final : ∀ nested, form.step nested = fun _ => Pure.pure none)
    (reads : ∀ levels, Reads (form.parser (withLevels levels)) form.inner levels phrase.levels
      phrase.tokens phrase.tree) :
    form.Continues phrase := by
  intro levels rest apart
  rw [reads levels rest apart, final, run_repeatFrom_of_none (by rfl)]

/-- A phrase goes on to the longer one that a step makes of it. -/
theorem extend
    {tokens : List Token}
    {tree : Expr}
    {needed : Nat}
    (continues : form.Continues phrase)
    (taken : tokens ≠ [])
    (apart : binding tokens.head? < form.inner)
    (stepped : ∀ levels rest, binding rest.head? < form.inner →
      (form.step (withLevels levels) phrase.tree).run (tokens ++ rest) =
        limited needed levels (.ok (some tree, rest))) :
    form.Continues ⟨phrase.tokens ++ tokens, tree, max phrase.levels needed⟩ := by
  intro levels rest ends
  obtain ⟨first, others, rfl⟩ := List.exists_cons_of_ne_nil taken
  have longer := run_repeatFrom_of_limited (stepped levels rest ends) (by simp)
  rw [List.append_assoc, continues levels (first :: others ++ rest) apart, longer,
    limited_limited]

end Continues

/-! ## Tighter forms and operators -/

/-- A phrase of a tighter form on its own is read as a phrase of the looser one. -/
theorem Continues.alone
    {form tighter : Form}
    {body : Phrase}
    (next : form.tighter = some tighter)
    (continues : tighter.Continues body)
    (opens : OpensWith tighter.opening body.tokens) :
    form.Continues body := by
  -- A chain and the trailers run the parser of the tighter form first.
  have chain
      {levels : Nat}
      {rest : List Token}
      (apart : binding rest.head? < tighter.tightness)
      (step : Expr → TokenParser (Option Expr)) :
      (tighter.parser (withLevels levels) >>= repeatFrom step).run (body.tokens ++ rest) =
        limited body.levels levels ((repeatFrom step body.tree).run rest) := by
    rw [run_bind, continues.reads levels rest apart, resume_limited, resume_ok]
  cases form with
  | expression | atom => contradiction
  | disjunction | conjunction | sum | product | trailers =>
      cases next
      exact fun levels rest apart => chain apart _
  | negation =>
      cases next
      exact .of_reads (fun _ => rfl) fun levels => (continues.reads levels).negation opens
  | comparison =>
      cases next
      exact .of_reads (fun _ => rfl) fun levels => (continues.reads levels).comparisonChain
  | signed =>
      cases next
      exact .of_reads (fun _ => rfl) fun levels => (continues.reads levels).signed opens
  | power =>
      cases next
      exact .of_reads (fun _ => rfl) fun levels => (continues.reads levels).power

/-- An operator of a form goes on from a phrase with an operand of the tighter form. -/
theorem step_of_mem_operators
    {form tighter : Form}
    {operator : BinaryOperator}
    (next : form.tighter = some tighter)
    (among : operator ∈ form.operators)
    (nested : Nested) :
    form.step nested = chainStep form.chainOperator (tighter.parser nested) ∧
      form.chainOperator (some (.symbol operator.symbol)) = some operator ∧
      binding (some (.symbol operator.symbol)) < form.inner ∧
      form.inner = tighter.tightness := by
  cases form with
  | disjunction | conjunction =>
      cases next
      obtain rfl := List.mem_singleton.mp among
      exact ⟨rfl, rfl, by decide, rfl⟩
  | sum | product =>
      cases next
      refine ⟨rfl, ?_, ?_, rfl⟩
      · revert operator
        decide
      · revert operator
        decide
  | _ => contradiction

/-- A chain that an operator and an operand prolong is read as a longer chain. -/
theorem Continues.joined
    {form tighter : Form}
    {operator : BinaryOperator}
    {left right : Phrase}
    (next : form.tighter = some tighter)
    (among : operator ∈ form.operators)
    (readsLeft : form.Continues left)
    (readsRight : tighter.Continues right) :
    form.Continues (.joined operator left right) := by
  obtain ⟨-, selects, apart, same⟩ := step_of_mem_operators next among (withLevels 0)
  refine readsLeft.extend (List.cons_ne_nil _ _) apart fun levels rest ends => ?_
  rw [(step_of_mem_operators next among _).1]
  exact run_chainStep_of_some selects (readsRight.reads levels) (same ▸ ends) left.tree

/-- A `not` is read with the negation behind it. -/
theorem Continues.not
    {operand : Phrase}
    (reads : negation.Continues operand) :
    negation.Continues (.under .not operand) := by
  refine .of_reads (fun _ => rfl) fun levels rest apart => ?_
  have read := reads_nested_negation reads.reads levels rest apart
  simp [parser, Expression.negation, Phrase.under, UnaryOperator.symbol, read]

/-- A sign is read with the signed operand behind it. -/
theorem Continues.sign
    {operator : UnaryOperator}
    {operand : Phrase}
    (isSign : operator ≠ .not)
    (reads : signed.Continues operand) :
    signed.Continues (.under operator operand) := by
  refine .of_reads (fun _ => rfl) fun levels rest apart => ?_
  have read := reads_nested_signed reads.reads levels rest apart
  cases operator with
  | not => contradiction
  | _ => simp [parser, Expression.signed, Phrase.under, UnaryOperator.symbol, read]

/-- A power is read with its exponent. -/
theorem Continues.power
    {base exponent : Phrase}
    (readsBase : trailers.Continues base)
    (readsExponent : signed.Continues exponent) :
    Form.power.Continues
      ⟨base.tokens ++ .symbol .doubleStar :: exponent.tokens,
        .binary .power base.tree exponent.tree,
        max base.levels (exponent.levels + 1)⟩ := by
  refine .of_reads (fun _ => rfl) fun levels rest apart => ?_
  have first := readsBase.reads levels (.symbol .doubleStar :: (exponent.tokens ++ rest))
    (Nat.lt_succ_self 7)
  have second := reads_nested_signed readsExponent.reads levels rest apart
  simp only [parser] at first
  simp [parser, Expression.power, first, second]

/-! ## Comparison chains -/

/-- A comparison ends the sum in front of it. -/
theorem binding_links
    (links : List (Comparison × Phrase))
    {rest : List Token}
    (apart : binding rest.head? < 4) :
    binding ((links.flatMap fun link => link.1.tokens ++ link.2.tokens) ++ rest).head? < 5 := by
  cases links with
  | nil => exact Nat.lt_succ_of_lt apart
  | cons link links =>
      obtain ⟨operator, operand⟩ := link
      cases operator <;> exact Nat.lt_succ_self 4

/-- From any links read before, the following ones are read to the end of the chain. -/
theorem run_repeatFrom_linkStep
    {links : List (Comparison × Phrase)}
    (reads : ∀ link ∈ links, sum.Continues link.2)
    (levels : Nat)
    (before : List (Comparison × Expr))
    {rest : List Token}
    (apart : binding rest.head? < 4) :
    (repeatFrom (linkStep (withLevels levels)) before).run
        ((links.flatMap fun link => link.1.tokens ++ link.2.tokens) ++ rest) =
      limited (deepest (links.map fun link => link.2.levels)) levels
        (.ok ((links.map fun link => (link.1, link.2.tree)).reverse ++ before, rest)) := by
  induction links generalizing before with
  | nil =>
      rw [List.flatMap_nil, List.nil_append, run_repeatFrom_of_none]
      · rfl
      · simp [linkStep, run_comparisonLink_of_binding_lt apart]
  | cons link links inductionHypothesis =>
      obtain ⟨operator, operand⟩ := link
      have read := (reads (operator, operand) (by simp)).reads levels _
        (binding_links links apart)
      have others := inductionHypothesis (fun other among => reads other (by simp [among]))
        ((operator, operand.tree) :: before)
      simp only [parser] at read
      have stepped : (linkStep (withLevels levels) before).run
          (operator.tokens ++ (operand.tokens ++
            ((links.flatMap fun link => link.1.tokens ++ link.2.tokens) ++ rest))) =
          limited operand.levels levels (.ok (some ((operator, operand.tree) :: before),
            (links.flatMap fun link => link.1.tokens ++ link.2.tokens) ++ rest)) := by
        simp [linkStep, run_comparisonLink, read]
      have taken : 0 < operator.tokens.length := by
        cases operator <;> decide
      have continued := run_repeatFrom_of_limited stepped (by
        simp only [List.length_append]
        omega)
      rw [others, limited_limited] at continued
      simpa [deepest] using continued

/-- A row of comparisons is read as one chain. -/
theorem Continues.chained
    {first : Phrase}
    {links : List (Comparison × Phrase)}
    (nonempty : links ≠ [])
    (readsFirst : sum.Continues first)
    (readsLinks : ∀ link ∈ links, sum.Continues link.2) :
    comparison.Continues (.chained first links) := by
  refine .of_reads (fun _ => rfl) fun levels rest apart => ?_
  have read := readsFirst.reads levels _ (binding_links links apart)
  simp only [parser] at read
  simp [parser, comparisonChain_eq, Phrase.chained, read,
    run_repeatFrom_linkStep readsLinks levels [] apart, nonempty]

/-! ## Whole expressions -/

/-- A disjunction is read as a whole expression one level deeper. -/
theorem Continues.whole
    {body : Phrase}
    (reads : disjunction.Continues body) :
    expression.Continues ⟨body.tokens, body.tree, body.levels + 1⟩ :=
  .of_reads (fun _ => rfl) (reads_expression fun levels => (reads.reads levels).conditional)

/-- A choice between two expressions is read as one. -/
theorem Continues.conditional
    {consequence condition alternative : Phrase}
    (readsConsequence : disjunction.Continues consequence)
    (readsCondition : disjunction.Continues condition)
    (readsAlternative : expression.Continues alternative) :
    expression.Continues
      ⟨consequence.tokens ++ .symbol .ifKeyword :: condition.tokens ++
          .symbol .elseKeyword :: alternative.tokens,
        .conditional condition.tree consequence.tree alternative.tree,
        max (max consequence.levels condition.levels) alternative.levels + 1⟩ := by
  refine .of_reads (fun _ => rfl) (reads_expression fun levels rest apart => ?_)
  have first := readsConsequence.reads levels (.symbol .ifKeyword ::
    (condition.tokens ++ .symbol .elseKeyword :: (alternative.tokens ++ rest))) Nat.one_lt_two
  have second := readsCondition.reads levels
    (.symbol .elseKeyword :: (alternative.tokens ++ rest)) Nat.zero_lt_two
  have third := readsAlternative.reads levels rest apart
  simp only [parser] at first second third
  simp [Expression.conditional, first, second, third]

/-! ## Lists of expressions -/

/-- A whole expression that can be read, and how it starts. -/
structure ReadsWhole (phrase : Phrase) : Prop where
  /-- The parser of expressions reads it. -/
  continues : expression.Continues phrase
  /-- It starts like an operand or with an operator. -/
  opens : OpensWith leadingOperators phrase.tokens

theorem ReadsWhole.reads
    {phrase : Phrase}
    (reads : ReadsWhole phrase)
    (levels : Nat) :
    Reads (withLevels levels).expression 1 levels phrase.levels phrase.tokens phrase.tree :=
  reads.continues.reads levels

/-- The expressions of a list are read up to the closing symbol. -/
theorem run_separated_expressions
    {items : List Phrase}
    {closing : Symbol}
    (closes : closing.closes = true)
    (reads : ∀ item ∈ items, ReadsWhole item)
    (trailing : Bool)
    (levels : Nat)
    (rest : List Token) :
    (separated (withLevels levels).expression closing).run
        (listed trailing (items.map Phrase.tokens) ++ .symbol closing :: rest) =
      limited (deepest (items.map Phrase.levels)) levels
        (.ok (items.map Phrase.tree, .symbol closing :: rest)) :=
  run_separated closes (fun item among => (reads item among).reads levels)
    (fun item among => (reads item among).opens) trailing rest

/-- Keys and values are read up to the closing brace. -/
theorem run_separated_entries
    {entries : List (Phrase × Phrase)}
    (readsKeys : ∀ entry ∈ entries, ReadsWhole entry.1)
    (readsValues : ∀ entry ∈ entries, ReadsWhole entry.2)
    (trailing : Bool)
    (levels : Nat)
    (rest : List Token) :
    (separated (dictEntry (withLevels levels)) .rightBrace).run
        (listed trailing (entries.map Phrase.entryTokens) ++ .symbol .rightBrace :: rest) =
      limited (deepest (entries.map fun entry => max entry.1.levels entry.2.levels)) levels
        (.ok (entries.map fun entry => (entry.1.tree, entry.2.tree),
          .symbol .rightBrace :: rest)) := by
  refine run_separated rfl (fun entry among following apart => ?_)
    (fun entry among => (readsKeys entry among).opens.append _) trailing rest
  have key := (readsKeys entry among).reads levels (.symbol .colon ::
    (entry.2.tokens ++ following)) Nat.zero_lt_one
  have value := (readsValues entry among).reads levels following apart
  simp [dictEntry, key, value]

/-- Arguments are read with the closing parenthesis. -/
theorem run_callArguments
    {arguments : List Phrase}
    (reads : ∀ argument ∈ arguments, ReadsWhole argument)
    (trailing : Bool)
    (levels : Nat)
    (rest : List Token) :
    (callArguments (withLevels levels)).run
        (listed trailing (arguments.map Phrase.tokens) ++ .symbol .rightParen :: rest) =
      limited (deepest (arguments.map Phrase.levels)) levels
        (.ok (arguments.map Phrase.tree, rest)) := by
  have closes : Symbol.rightParen.closes = true := rfl
  simp [callArguments, run_separated_expressions closes reads]

/-! ## Trailers -/

/-- A bound of a slice is read up to a colon or the closing bracket. -/
theorem run_sliceBound
    {bound : Option Phrase}
    (reads : ∀ present ∈ bound, ReadsWhole present)
    (levels : Nat)
    {rest : List Token}
    (ends : rest.head? = some (.symbol .colon) ∨ rest.head? = some (.symbol .rightBracket)) :
    (sliceBound (withLevels levels)).run (bound.elim [] Phrase.tokens ++ rest) =
      limited (bound.elim 0 Phrase.levels) levels (.ok (bound.map Phrase.tree, rest)) := by
  cases bound with
  | none => simp [sliceBound, ends]
  | some present =>
      have apart : binding rest.head? < 1 := by
        cases ends with
        | inl colon => simp [colon, binding, Symbol.binding]
        | inr closing => simp [closing, binding, Symbol.binding]
      have read := (reads present rfl).reads levels rest apart
      have opens := (reads present rfl).opens
      have noColon := opens.head?_append_ne .colon rfl (by decide) rest
      have noBracket := opens.head?_append_ne .rightBracket rfl (by decide) rest
      simp only [sliceBound, Option.elim_some, run_bind, run_peek, resume_ok, noColon,
        noBracket, or_self, if_false, read, resume_limited, run_pure, Option.map_some]

/-- The step of a slice is read up to the closing bracket. -/
theorem run_sliceStep
    {step : Option Phrase}
    {secondColon : Bool}
    (reads : ∀ present ∈ step, ReadsWhole present)
    (colonless : secondColon = false → step = none)
    (levels : Nat)
    (rest : List Token) :
    (sliceStep (withLevels levels)).run ((if secondColon then [.symbol .colon] else []) ++
        (step.elim [] Phrase.tokens ++ .symbol .rightBracket :: rest)) =
      limited (step.elim 0 Phrase.levels) levels
        (.ok (step.map Phrase.tree, .symbol .rightBracket :: rest)) := by
  cases step with
  | none => cases secondColon <;> simp [sliceStep]
  | some present =>
      have hasColon : secondColon = true := by simpa using colonless
      have read := (reads present rfl).reads levels (.symbol .rightBracket :: rest)
        Nat.zero_lt_one
      have noBracket := (reads present rfl).opens.head?_append_ne .rightBracket rfl
        (by decide) (.symbol .rightBracket :: rest)
      simp only [sliceStep, hasColon, if_true, Option.elim_some, List.cons_append,
        List.nil_append, run_bind, run_eat_self, resume_ok, run_peek, noBracket, if_false, read,
        resume_limited, run_pure, Option.map_some]

section Slice

variable
  {start stop step : Option Phrase}
  {secondColon : Bool}

/-- The part of a slice behind its first colon is read with the closing bracket. -/
theorem run_sliceRest
    (readsStop : ∀ present ∈ stop, ReadsWhole present)
    (readsStep : ∀ present ∈ step, ReadsWhole present)
    (colonless : secondColon = false → step = none)
    (collection : Expr)
    (start : Option Expr)
    (levels : Nat)
    (rest : List Token) :
    (sliceRest (withLevels levels) collection start).run
        (stop.elim [] Phrase.tokens ++ ((if secondColon then [.symbol .colon] else []) ++
          (step.elim [] Phrase.tokens ++ .symbol .rightBracket :: rest))) =
      limited (max (stop.elim 0 Phrase.levels) (step.elim 0 Phrase.levels)) levels
        (.ok (.slice collection start (stop.map Phrase.tree) (step.map Phrase.tree), rest)) := by
  have last := run_sliceStep readsStep colonless levels rest
  generalize behind : (if secondColon then [.symbol .colon] else []) ++
    (step.elim [] Phrase.tokens ++ .symbol .rightBracket :: rest) = following at last ⊢
  have ends : following.head? = some (.symbol .colon) ∨
      following.head? = some (.symbol .rightBracket) := by
    cases secondColon with
    | true => exact .inl (by simp [← behind])
    | false => exact .inr (by simp [← behind, colonless])
  simp [sliceRest, run_sliceBound readsStop levels ends, last]

/-- A slice behind its opening bracket is read to its closing one. -/
theorem run_subscript_slice
    (readsStart : ∀ present ∈ start, ReadsWhole present)
    (readsStop : ∀ present ∈ stop, ReadsWhole present)
    (readsStep : ∀ present ∈ step, ReadsWhole present)
    (colonless : secondColon = false → step = none)
    (collection : Expr)
    (levels : Nat)
    (rest : List Token) :
    (subscript (withLevels levels) collection).run
        (start.elim [] Phrase.tokens ++ .symbol .colon :: (stop.elim [] Phrase.tokens ++
          ((if secondColon then [.symbol .colon] else []) ++
            (step.elim [] Phrase.tokens ++ .symbol .rightBracket :: rest)))) =
      limited (deepest ([start, stop, step].map (Option.elim · 0 Phrase.levels))) levels
        (.ok (.slice collection (start.map Phrase.tree) (stop.map Phrase.tree)
          (step.map Phrase.tree), rest)) := by
  have behind (start : Option Expr) :=
    run_sliceRest readsStop readsStep colonless collection start levels rest
  generalize stop.elim [] Phrase.tokens ++ _ = following at behind ⊢
  cases start with
  | none => simp [subscript, behind, deepest]
  | some present =>
      have noColon := (readsStart present rfl).opens.head?_append_ne .colon rfl (by decide)
      have read := (readsStart present rfl).reads levels (.symbol .colon :: following)
        Nat.zero_lt_one
      simp [subscript, run_eat_of_ne (noColon _), read, behind, deepest]

end Slice

/-- An index behind its opening bracket is read to its closing one. -/
theorem run_subscript_index
    {position : Phrase}
    (reads : ReadsWhole position)
    (collection : Expr)
    (levels : Nat)
    (rest : List Token) :
    (subscript (withLevels levels) collection).run
        (position.tokens ++ .symbol .rightBracket :: rest) =
      limited position.levels levels (.ok (.index collection position.tree, rest)) := by
  have noColon := reads.opens.head?_append_ne .colon rfl (by decide)
  have read := reads.reads levels (.symbol .rightBracket :: rest) Nat.zero_lt_one
  simp [subscript, run_eat_of_ne (noColon _), read]

/-- A subject with brackets behind it is read as what the brackets make of it. -/
theorem Continues.bracketed
    {subject : Phrase}
    {inside : List Token}
    {tree : Expr}
    {needed : Nat}
    (readsSubject : trailers.Continues subject)
    (read : ∀ levels rest, (subscript (withLevels levels) subject.tree).run
      (inside ++ .symbol .rightBracket :: rest) = limited needed levels (.ok (tree, rest))) :
    trailers.Continues
      ⟨subject.tokens ++ .symbol .leftBracket :: inside ++ [.symbol .rightBracket], tree,
        max subject.levels needed⟩ := by
  rw [List.append_assoc]
  refine readsSubject.extend (by simp) (Nat.lt_succ_self 8) fun levels rest _ => ?_
  simp [step, trailerStep, read]

/-- A subject with a slice behind it is read as the slice. -/
theorem Continues.sliced
    {subject : Phrase}
    {start stop step : Option Phrase}
    {secondColon : Bool}
    (readsSubject : trailers.Continues subject)
    (readsStart : ∀ present ∈ start, ReadsWhole present)
    (readsStop : ∀ present ∈ stop, ReadsWhole present)
    (readsStep : ∀ present ∈ step, ReadsWhole present)
    (colonless : secondColon = false → step = none) :
    trailers.Continues (subject.sliced start stop step secondColon) := by
  have read := run_subscript_slice readsStart readsStop readsStep colonless subject.tree
  have continues := readsSubject.bracketed fun levels rest => by
    have inside := read levels rest
    simp only [← List.cons_append, ← List.append_assoc] at inside
    exact inside
  simpa [Phrase.sliced] using continues

/-- A subject with a call of a method behind it is read as the call. -/
theorem Continues.method
    {receiver : Phrase}
    {arguments : List Phrase}
    (readsReceiver : trailers.Continues receiver)
    (readsArguments : ∀ argument ∈ arguments, ReadsWhole argument)
    (name : String)
    (trailing : Bool) :
    trailers.Continues
      ⟨receiver.tokens ++ .symbol .dot :: .name name :: Phrase.argumentTokens trailing arguments,
        .method receiver.tree name (arguments.map Phrase.tree),
        max receiver.levels (deepest (arguments.map Phrase.levels))⟩ := by
  refine readsReceiver.extend (by simp) (Nat.lt_succ_self 8) fun levels rest _ => ?_
  simp [step, trailerStep, methodCall, Phrase.argumentTokens, run_callArguments readsArguments]

/-! ## Atoms -/

/-- Tokens that the parser of atoms reads are a phrase that it reads. -/
theorem Continues.of_run_atom
    {phrase : Phrase}
    (read : ∀ levels rest, binding rest.head? < 9 →
      (Expression.atom (withLevels levels)).run (phrase.tokens ++ rest) =
        limited phrase.levels levels (.ok (phrase.tree, rest))) :
    atom.Continues phrase :=
  .of_reads (fun _ => rfl) read

end Form

open Form

/-- Every phrase of the grammar is read by the parser of its form. -/
theorem Derives.continues
    {form : Form}
    {phrase : Phrase}
    (derives : Derives form phrase) :
    form.Continues phrase := by
  have whole
      {body : Phrase}
      (derives : Derives .expression body)
      (continues : Form.expression.Continues body) :
      ReadsWhole body :=
    ⟨continues, derives.opensWith⟩
  induction derives with
  | whole _ body => exact body.whole
  | conditional _ _ _ consequence condition alternative =>
      exact consequence.conditional condition alternative
  | alone next derives body => exact body.alone next derives.opensWith
  | joined next among _ _ left right => exact left.joined next among right
  | not _ operand => exact operand.not
  | chained nonempty _ _ first links => exact first.chained nonempty links
  | sign isSign _ operand => exact operand.sign isSign
  | power _ _ base exponent => exact base.power exponent
  | index _ derivesPosition subject position =>
      exact subject.bracketed (run_subscript_index (whole derivesPosition position) _)
  | slice _ derivesStart derivesStop derivesStep colonless subject start stop step =>
      exact subject.sliced
        (fun bound present => whole (derivesStart bound present) (start bound present))
        (fun bound present => whole (derivesStop bound present) (stop bound present))
        (fun bound present => whole (derivesStep bound present) (step bound present)) colonless
  | method _ derivesArguments receiver arguments =>
      exact receiver.method (fun argument among =>
        whole (derivesArguments argument among) (arguments argument among)) _ _
  | constant isConstant =>
      exact .of_run_atom fun levels rest _ => by simpa using run_atom_constant isConstant _ rest
  | @strings texts nonempty =>
      obtain ⟨first, others, rfl⟩ := List.exists_cons_of_ne_nil nonempty
      refine .of_run_atom fun levels rest apart => ?_
      rw [List.map_cons, List.cons_append, run_atom_text, run_bind,
        run_adjacentStrings first others apart]
      simp [String.join]
  | reference own =>
      exact .of_run_atom fun levels rest apart => by simpa using run_atom_name own _ apart
  | call own derivesArguments arguments =>
      have read := run_callArguments fun argument among =>
        whole (derivesArguments argument among) (arguments argument among)
      refine .of_run_atom fun levels rest _ => ?_
      simp [run_atom_word, nameOrCall, own, Phrase.argumentTokens, read]
  | parenthesized derivesBody body =>
      refine .of_run_atom fun levels rest _ => ?_
      have read := body.reads levels (.symbol .rightParen :: rest) Nat.zero_lt_one
      simp only [Form.parser] at read
      simp [run_atom_leftParen, Expression.parenthesized, read]
  | list derivesItems items =>
      have closes : Symbol.rightBracket.closes = true := rfl
      have read := run_separated_expressions closes fun item among =>
        whole (derivesItems item among) (items item among)
      refine .of_run_atom fun levels rest _ => ?_
      simp [run_atom_leftBracket, read]
  | dict derivesKeys derivesValues keys values =>
      have read := run_separated_entries
        (fun entry among => whole (derivesKeys entry among) (keys entry among))
        (fun entry among => whole (derivesValues entry among) (values entry among))
      refine .of_run_atom fun levels rest _ => ?_
      simp [run_atom_leftBrace, read]

/-- A phrase is read by the parser of its form, whatever may follow it. -/
theorem Derives.reads
    {form : Form}
    {phrase : Phrase}
    (derives : Derives form phrase)
    (levels : Nat) :
    Reads (form.parser (withLevels levels)) form.tightness levels phrase.levels phrase.tokens
      phrase.tree :=
  derives.continues.reads levels

theorem Form.tightness_pos (form : Form) : 0 < form.tightness := by
  cases form <;> decide

/-- A phrase with the tokens of another one has its tree and needs no more levels. -/
theorem Derives.levels_le_and_tree_eq
    {form : Form}
    {phrase other : Phrase}
    (derives : Derives form phrase)
    (otherDerives : Derives form other)
    (same : phrase.tokens = other.tokens) :
    phrase.levels ≤ other.levels ∧ phrase.tree = other.tree := by
  have read := derives.reads other.levels [] form.tightness_pos
  rw [same, otherDerives.reads other.levels [] form.tightness_pos,
    limited_of_le (Nat.le_refl _)] at read
  unfold limited at read
  split at read
  · rename_i fits
    exact ⟨fits, (Prod.mk.inj (Except.ok.inj read)).1.symm⟩
  · contradiction

/-- The grammar is unambiguous: tokens are a phrase of a form in one way at most. -/
theorem Derives.eq_of_tokens_eq
    {form : Form}
    {phrase other : Phrase}
    (derives : Derives form phrase)
    (otherDerives : Derives form other)
    (same : phrase.tokens = other.tokens) :
    phrase = other := by
  obtain ⟨fits, sameTree⟩ := derives.levels_le_and_tree_eq otherDerives same
  obtain ⟨otherFits, -⟩ := otherDerives.levels_le_and_tree_eq derives same.symm
  cases phrase
  cases other
  rw [Phrase.mk.injEq]
  exact ⟨same, sameTree, Nat.le_antisymm fits otherFits⟩

/-- The tokens of a phrase parse as its tree, unless it opens too many levels. -/
theorem Derives.parseTokens_eq
    {phrase : Phrase}
    (derives : Derives .expression phrase) :
    parseTokens phrase.tokens = limited phrase.levels maxNesting (.ok phrase.tree) :=
  parseTokens_of_reads (derives.reads maxNesting)

end Expression
end TemplatedMarkup
