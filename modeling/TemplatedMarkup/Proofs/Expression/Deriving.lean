import TemplatedMarkup.Proofs.Expression.Accepting
import TemplatedMarkup.Proofs.Expression.Taken

/-!
# Only phrases are read

What the parser of a form takes off the front is a phrase of the form, with the tree that it
gives and no more levels than may be opened.  With the converse, that every phrase is read, the
parser of expressions accepts exactly the grammar.
-/

namespace TemplatedMarkup
namespace Expression

open TokenParser Takes

/-- A phrase of a form that opens at most some levels. -/
structure Phrase.Fits
    (form : Form)
    (levels : Nat)
    (phrase : Phrase) : Prop where
  /-- The form derives it. -/
  derives : Derives form phrase
  /-- Its levels are few enough. -/
  levels_le : phrase.levels ≤ levels

/-- Tokens and a tree that a phrase of a form has which opens at most some levels. -/
def Form.Derived
    (form : Form)
    (levels : Nat)
    (taken : List Token)
    (tree : Expr) : Prop :=
  ∃ phrase : Phrase, phrase.Fits form levels ∧ taken = phrase.tokens ∧ tree = phrase.tree

/-- A tighter form on its own. -/
theorem Form.Derived.alone
    {form tighter : Form}
    {levels : Nat}
    {taken : List Token}
    {tree : Expr}
    (derived : tighter.Derived levels taken tree)
    (next : form.tighter = some tighter) :
    form.Derived levels taken tree := by
  obtain ⟨phrase, fits, tokens, isTree⟩ := derived
  exact ⟨phrase, ⟨.alone next fits.derives, fits.levels_le⟩, tokens, isTree⟩

/-- The parsers one level deeper take phrases that fit into the levels. -/
structure Nested.Deriving
    (nested : Nested)
    (levels : Nat) : Prop where
  /-- A whole expression. -/
  expression : Takes nested.expression (Form.expression.Derived levels)
  /-- What `not` applies to. -/
  negation : Takes nested.negation fun taken tree =>
    ∃ inner < levels, Form.negation.Derived inner taken tree
  /-- What a sign or a power applies to. -/
  signed : Takes nested.signed fun taken tree =>
    ∃ inner < levels, Form.signed.Derived inner taken tree

section Forms

variable
  {nested : Nested}
  {levels : Nat}

/-! ## Lists -/

theorem takes_callArguments (derives : nested.Deriving levels) :
    Takes (callArguments nested) fun taken trees =>
      ∃ arguments trailing,
        (∀ argument ∈ arguments, argument.Fits .expression levels) ∧
        .symbol .leftParen :: taken = Phrase.argumentTokens trailing arguments ∧
        trees = arguments.map Phrase.tree := by
  refine (Takes.separated derives.expression).bind ?_
  rintro _ _ ⟨trailing, arguments, fit, rfl, rfl⟩
  refine expect.bind ?_
  rintro _ _ rfl
  exact pure ⟨arguments, trailing, fit, by simp [Phrase.argumentTokens], rfl⟩

theorem takes_dictEntry (derives : nested.Deriving levels) :
    Takes (dictEntry nested) fun taken trees =>
      ∃ entry : Phrase × Phrase,
        (entry.1.Fits .expression levels ∧ entry.2.Fits .expression levels) ∧
        taken = Phrase.entryTokens entry ∧ trees = (entry.1.tree, entry.2.tree) := by
  refine derives.expression.bind ?_
  rintro _ _ ⟨key, keyFits, rfl, rfl⟩
  refine expect.bind ?_
  rintro _ _ rfl
  refine derives.expression.bind ?_
  rintro _ _ ⟨value, valueFits, rfl, rfl⟩
  exact pure ⟨(key, value), ⟨keyFits, valueFits⟩, by simp [Phrase.entryTokens], rfl⟩

/-- The deepest of some phrases that fit is as deep as they may be. -/
theorem deepest_levels_le
    {phrases : List Phrase}
    (fit : ∀ phrase ∈ phrases, phrase.Fits .expression levels) :
    deepest (phrases.map Phrase.levels) ≤ levels := by
  rw [deepest_le_iff, List.forall_mem_map]
  exact fun phrase among => (fit phrase among).levels_le

/-! ## Atoms -/

theorem takes_adjacentStrings (text : String) :
    Takes (adjacentStrings text) fun taken whole =>
      ∃ others : List String, taken = others.map .str ∧ whole = others.foldl (· ++ ·) text := by
  let reached (taken : List Token) (whole : String) : Prop :=
    ∃ others : List String, taken = others.map .str ∧ whole = others.foldl (· ++ ·) text
  refine @repeatFrom _ _ reached (fun before whole earlier => ?_) [] text ⟨[], rfl, rfl⟩
  obtain ⟨others, rfl, rfl⟩ := earlier
  intro input rest following parsed
  cases input with
  | nil =>
      obtain ⟨rfl, rfl⟩ := Prod.mk.inj (Except.ok.inj parsed)
      exact ⟨[], rfl, others, by simp, rfl⟩
  | cons first remaining =>
      cases first with
      | str more =>
          obtain ⟨rfl, rfl⟩ := Prod.mk.inj (Except.ok.inj parsed)
          exact ⟨[.str more], rfl, others ++ [more], by simp, by simp⟩
      | _ =>
          obtain ⟨rfl, rfl⟩ := Prod.mk.inj (Except.ok.inj parsed)
          exact ⟨[], rfl, others, by simp, rfl⟩

theorem takes_nameOrCall
    (derives : nested.Deriving levels)
    (name : String) :
    Takes (nameOrCall nested name) fun taken tree =>
      Form.atom.Derived levels (.name name :: taken) tree := by
  refine ite (fun _ => fail) fun notReserved => ?_
  have own : isReserved name = false := by simpa using notReserved
  refine eat ?_ (pure ⟨_, ⟨.reference own, Nat.zero_le _⟩, rfl, rfl⟩)
  refine (takes_callArguments derives).bind ?_
  rintro before _ ⟨arguments, trailing, fit, spelled, rfl⟩
  exact pure ⟨_, ⟨@Derives.call _ arguments trailing own fun argument among =>
    (fit argument among).derives, deepest_levels_le fit⟩, by simp [spelled], rfl⟩

theorem takes_parenthesized (derives : nested.Deriving levels) :
    Takes (parenthesized nested) fun taken tree =>
      Form.atom.Derived levels (.symbol .leftParen :: taken) tree := by
  refine derives.expression.bind ?_
  rintro _ _ ⟨body, fits, rfl, rfl⟩
  refine peek.bind ?_
  rintro _ _ rfl
  refine ite (fun _ => fail) fun _ => expect.bind ?_
  rintro _ _ rfl
  exact pure ⟨_, ⟨.parenthesized fits.derives, fits.levels_le⟩, by simp, rfl⟩

theorem takes_listDisplay (derives : nested.Deriving levels) :
    Takes (do
      let items ← TokenParser.separated nested.expression .rightBracket
      TokenParser.expect .rightBracket "']' to close list"
      return .list items) fun taken tree =>
        Form.atom.Derived levels (.symbol .leftBracket :: taken) tree := by
  refine (Takes.separated derives.expression).bind ?_
  rintro _ _ ⟨trailing, items, fit, rfl, rfl⟩
  refine expect.bind ?_
  rintro _ _ rfl
  exact pure ⟨_, ⟨@Derives.list items trailing fun item among => (fit item among).derives,
    deepest_levels_le fit⟩, by simp, rfl⟩

theorem takes_dictDisplay (derives : nested.Deriving levels) :
    Takes (do
      let entries ← TokenParser.separated (dictEntry nested) .rightBrace
      TokenParser.expect .rightBrace "'\x7d' to close dict"
      return .dict entries) fun taken tree =>
        Form.atom.Derived levels (.symbol .leftBrace :: taken) tree := by
  refine (Takes.separated (takes_dictEntry derives)).bind ?_
  rintro _ _ ⟨trailing, entries, fit, rfl, rfl⟩
  refine expect.bind ?_
  rintro _ _ rfl
  have deep : deepest (entries.map fun entry => max entry.1.levels entry.2.levels) ≤ levels := by
    rw [deepest_le_iff, List.forall_mem_map]
    exact fun entry among =>
      Nat.max_le.mpr ⟨(fit entry among).1.levels_le, (fit entry among).2.levels_le⟩
  exact pure ⟨_, ⟨@Derives.dict entries trailing (fun entry among => (fit entry among).1.derives)
    (fun entry among => (fit entry among).2.derives), deep⟩, by simp, rfl⟩

theorem takes_atom (derives : nested.Deriving levels) :
    Takes (atom nested) (Form.atom.Derived levels) := by
  have constant
      {token : Token}
      {value : Literal}
      (isConstant : token.constant? = some value) :
      Takes (Pure.pure (Expr.literal value)) fun taken tree =>
        Form.atom.Derived levels (token :: taken) tree :=
    pure ⟨_, ⟨.constant isConstant, Nat.zero_le _⟩, rfl, rfl⟩
  refine next.bind ?_
  rintro _ found rfl
  cases found with
  | none => exact fail
  | some first =>
      cases first with
      | int number | float number => exact constant rfl
      | str text =>
          refine (takes_adjacentStrings text).bind ?_
          rintro _ _ ⟨others, rfl, rfl⟩
          refine pure ⟨_, ⟨.strings (List.cons_ne_nil text others), Nat.zero_le _⟩, by simp, ?_⟩
          simp [String.join]
      | name text => exact takes_nameOrCall derives text
      | symbol kind =>
          cases kind with
          | trueKeyword | falseKeyword | noneKeyword => exact constant rfl
          | leftParen => exact takes_parenthesized derives
          | leftBracket => exact takes_listDisplay derives
          | leftBrace => exact takes_dictDisplay derives
          | _ => exact fail

/-! ## Trailers -/

theorem takes_sliceBound (derives : nested.Deriving levels) :
    Takes (sliceBound nested) fun taken tree =>
      ∃ bound : Option Phrase, (∀ present ∈ bound, present.Fits .expression levels) ∧
        taken = bound.elim [] Phrase.tokens ∧ tree = bound.map Phrase.tree := by
  refine peek.bind ?_
  rintro _ found rfl
  refine ite (fun _ => pure ⟨none, by simp, rfl, rfl⟩) fun _ => derives.expression.bind ?_
  rintro _ _ ⟨bound, fits, rfl, rfl⟩
  exact pure ⟨some bound, by simpa using fits, by simp, rfl⟩

theorem takes_sliceStep (derives : nested.Deriving levels) :
    Takes (sliceStep nested) fun taken tree =>
      ∃ (step : Option Phrase) (secondColon : Bool),
        (∀ present ∈ step, present.Fits .expression levels) ∧
        (secondColon = false → step = none) ∧
        taken = (if secondColon then [.symbol .colon] else []) ++ step.elim [] Phrase.tokens ∧
        tree = step.map Phrase.tree := by
  refine eat (peek.bind ?_) (pure ⟨none, false, by simp, by simp, rfl, rfl⟩)
  rintro _ found rfl
  refine ite (fun _ => pure ⟨none, true, by simp, by simp, rfl, rfl⟩) fun _ =>
    derives.expression.bind ?_
  rintro _ _ ⟨step, fits, rfl, rfl⟩
  exact pure ⟨some step, true, by simpa using fits, by simp, by simp, rfl⟩

/-- A subject with a slice behind it is a phrase. -/
theorem takes_sliceRest
    {subject : Phrase}
    {start : Option Phrase}
    (derives : nested.Deriving levels)
    (fits : subject.Fits .trailers levels)
    (startFits : ∀ present ∈ start, present.Fits .expression levels) :
    Takes (sliceRest nested subject.tree (start.map Phrase.tree)) fun taken tree =>
      Form.trailers.Derived levels (subject.tokens ++ .symbol .leftBracket ::
        (start.elim [] Phrase.tokens ++ .symbol .colon :: taken)) tree := by
  refine (takes_sliceBound derives).bind ?_
  rintro _ _ ⟨stop, stopFits, rfl, rfl⟩
  refine (takes_sliceStep derives).bind ?_
  rintro _ _ ⟨step, secondColon, stepFits, colonless, rfl, rfl⟩
  refine expect.bind ?_
  rintro _ _ rfl
  refine pure ⟨subject.sliced start stop step secondColon, ⟨.slice fits.derives
    (fun bound present => (startFits bound present).derives)
    (fun bound present => (stopFits bound present).derives)
    (fun bound present => (stepFits bound present).derives) colonless, ?_⟩,
    by simp [Phrase.sliced], rfl⟩
  have bound_le
      {bound : Option Phrase}
      (fits : ∀ present ∈ bound, present.Fits .expression levels) :
      bound.elim 0 Phrase.levels ≤ levels := by
    cases bound with
    | none => exact Nat.zero_le _
    | some present => exact (fits present rfl).levels_le
  refine Nat.max_le.mpr ⟨fits.levels_le, ?_⟩
  simp [deepest, bound_le startFits, bound_le stopFits, bound_le stepFits]

theorem takes_subscript
    {subject : Phrase}
    (derives : nested.Deriving levels)
    (fits : subject.Fits .trailers levels) :
    Takes (subscript nested subject.tree) fun taken tree =>
      Form.trailers.Derived levels (subject.tokens ++ .symbol .leftBracket :: taken) tree := by
  refine eat (@takes_sliceRest _ _ _ none derives fits (by simp)) ?_
  refine derives.expression.bind ?_
  rintro _ _ ⟨first, firstFits, rfl, rfl⟩
  refine eat ?_ (expect.bind ?_)
  · exact @takes_sliceRest _ _ _ (some first) derives fits (by simpa using firstFits)
  · rintro _ _ rfl
    exact pure ⟨_, ⟨.index fits.derives firstFits.derives,
      Nat.max_le.mpr ⟨fits.levels_le, firstFits.levels_le⟩⟩, by simp, rfl⟩

theorem takes_methodCall
    {receiver : Phrase}
    (derives : nested.Deriving levels)
    (fits : receiver.Fits .trailers levels) :
    Takes (methodCall nested receiver.tree) fun taken tree =>
      Form.trailers.Derived levels (receiver.tokens ++ .symbol .dot :: taken) tree := by
  refine expectName.bind ?_
  rintro _ name rfl
  refine eat ((takes_callArguments derives).bind ?_) fail
  rintro _ _ ⟨arguments, trailing, argumentsFit, spelled, rfl⟩
  exact pure ⟨_, ⟨@Derives.method receiver name arguments trailing fits.derives
    fun argument among => (argumentsFit argument among).derives,
    Nat.max_le.mpr ⟨fits.levels_le, deepest_levels_le argumentsFit⟩⟩, by simp [spelled], rfl⟩

theorem takes_trailers (derives : nested.Deriving levels) :
    Takes (trailers nested) (Form.trailers.Derived levels) := by
  rw [trailers_eq]
  refine (takes_atom derives).bind ?_
  intro before atom derived
  refine repeatFrom ?_ (derived.alone rfl)
  rintro _ _ ⟨subject, fits, rfl, rfl⟩
  refine eat ?_ (eat ?_ (pure ⟨subject, fits, by simp, rfl⟩))
  · refine (takes_subscript derives fits).bind fun before following derived => pure ?_
    simpa using derived
  · refine (takes_methodCall derives fits).bind fun before following derived => pure ?_
    simpa using derived

/-! ## Operators -/

theorem takes_power (derives : nested.Deriving levels) :
    Takes (power nested) (Form.power.Derived levels) := by
  refine (takes_trailers derives).bind ?_
  rintro _ _ ⟨base, fits, rfl, rfl⟩
  refine eat (derives.signed.bind ?_) (pure ⟨base, ⟨.alone rfl fits.derives, fits.levels_le⟩,
    by simp, rfl⟩)
  rintro _ _ ⟨inner, deeper, exponent, exponentFits, rfl, rfl⟩
  exact pure ⟨_, ⟨.power fits.derives exponentFits.derives, Nat.max_le.mpr ⟨fits.levels_le,
    Nat.succ_le_of_lt (Nat.lt_of_le_of_lt exponentFits.levels_le deeper)⟩⟩, by simp, rfl⟩

theorem takes_signed (derives : nested.Deriving levels) :
    Takes (signed nested) (Form.signed.Derived levels) := by
  have sign (operator : UnaryOperator) (isSign : operator ≠ .not) : Takes (do
      return .unary operator (← nested.signed)) fun taken tree =>
        Form.signed.Derived levels (.symbol operator.symbol :: taken) tree := by
    refine derives.signed.bind ?_
    rintro _ _ ⟨inner, deeper, operand, fits, rfl, rfl⟩
    exact pure ⟨operand.under operator, ⟨.sign isSign fits.derives,
      Nat.succ_le_of_lt (Nat.lt_of_le_of_lt fits.levels_le deeper)⟩, by simp [Phrase.under], rfl⟩
  refine eat (sign .negate (by decide)) (eat (sign .plus (by decide)) ?_)
  exact (takes_power derives).mono fun _ _ derived => derived.alone rfl

/-- A token that selects an operator of a form is the symbol of the operator. -/
theorem Form.eq_symbol_of_chainOperator_eq_some
    {form : Form}
    {found : Option Token}
    {operator : BinaryOperator}
    (selects : form.chainOperator found = some operator) :
    operator ∈ form.operators ∧ found = some (.symbol operator.symbol) := by
  cases form with
  | disjunction =>
      simp only [chainOperator, orOperator] at selects
      split at selects <;> cases selects
      exact ⟨by decide, rfl⟩
  | conjunction =>
      simp only [chainOperator, andOperator] at selects
      split at selects <;> cases selects
      exact ⟨by decide, rfl⟩
  | sum =>
      simp only [chainOperator, sumOperator] at selects
      split at selects <;> cases selects <;> exact ⟨by decide, rfl⟩
  | product =>
      simp only [chainOperator, productOperator] at selects
      split at selects <;> cases selects <;> exact ⟨by decide, rfl⟩
  | _ => contradiction

/-- Operands joined by the operators of a form are a phrase of the form. -/
theorem takes_leftChain
    {form tighter : Form}
    {operand : TokenParser Expr}
    (next : form.tighter = some tighter)
    (takes : Takes operand (tighter.Derived levels)) :
    Takes (leftChain form.chainOperator operand) (form.Derived levels) := by
  rw [leftChain_eq]
  refine takes.bind fun before first derived => repeatFrom ?_ (derived.alone next)
  rintro _ _ ⟨left, fits, rfl, rfl⟩ input rest following parsed
  unfold chainStep at parsed
  rw [run_bind, run_peek, resume_ok] at parsed
  split at parsed
  · rename_i operator selects
    obtain ⟨among, isSymbol⟩ := Form.eq_symbol_of_chainOperator_eq_some selects
    obtain ⟨others, rfl⟩ := List.head?_eq_some_iff.mp isSymbol
    have joined : Takes (operand >>= fun right =>
        Pure.pure (some (Expr.binary operator left.tree right))) fun taken following =>
        form.Derived levels (left.tokens ++ .symbol operator.symbol :: taken)
          (following.getD left.tree) := by
      refine takes.bind ?_
      rintro _ _ ⟨right, rightFits, rfl, rfl⟩
      exact pure ⟨.joined operator left right, ⟨.joined next among fits.derives rightFits.derives,
        Nat.max_le.mpr ⟨fits.levels_le, rightFits.levels_le⟩⟩, by simp [Phrase.joined], rfl⟩
    obtain ⟨taken, rfl, derived⟩ := joined _ _ _ parsed
    exact ⟨_ :: taken, rfl, derived⟩
  · obtain ⟨rfl, rfl⟩ := Prod.mk.inj (Except.ok.inj parsed)
    exact ⟨[], rfl, left, fits, by simp, rfl⟩

theorem takes_sum (derives : nested.Deriving levels) :
    Takes (sum nested) (Form.sum.Derived levels) :=
  @takes_leftChain _ .sum _ _ rfl (@takes_leftChain _ .product _ _ rfl (takes_signed derives))

/-! ## Comparison chains -/

theorem eq_tokens_of_comparisonOperator_eq_some
    {found : Option Token}
    {operator : Comparison}
    (selects : comparisonOperator found = some operator) :
    found.toList = operator.tokens := by
  unfold comparisonOperator at selects
  split at selects <;> cases selects <;> rfl

theorem takes_comparisonLink :
    Takes comparisonLink fun taken found => taken = found.elim [] Comparison.tokens := by
  intro input rest found parsed
  unfold comparisonLink at parsed
  rw [run_bind, run_peek, resume_ok] at parsed
  split at parsed
  · rename_i operator selects
    obtain ⟨rfl, rfl⟩ := Prod.mk.inj (Except.ok.inj parsed)
    refine ⟨operator.tokens, ?_, rfl⟩
    rw [← eq_tokens_of_comparisonOperator_eq_some selects]
    cases input <;> rfl
  · rw [run_bind, run_peekSecond, resume_ok, run_ite] at parsed
    split at parsed
    · rename_i both
      obtain ⟨rfl, rfl⟩ := Prod.mk.inj (Except.ok.inj parsed)
      obtain ⟨others, rfl⟩ := List.head?_eq_some_iff.mp both.1
      obtain ⟨others, rfl⟩ := List.head?_eq_some_iff.mp both.2
      exact ⟨Comparison.notMember.tokens, rfl, rfl⟩
    · obtain ⟨rfl, rfl⟩ := Prod.mk.inj (Except.ok.inj parsed)
      exact ⟨[], rfl, rfl⟩

/-- The tokens and the trees of the links read so far, the last of them first. -/
def LinksSoFar
    (levels : Nat)
    (taken : List Token)
    (links : List (Comparison × Expr)) : Prop :=
  ∃ phrases : List (Comparison × Phrase),
    (∀ link ∈ phrases, link.2.Fits .sum levels) ∧
    taken = (phrases.flatMap fun link => link.1.tokens ++ link.2.tokens) ∧
    links.reverse = phrases.map fun link => (link.1, link.2.tree)

theorem takes_linkStep
    {before : List Token}
    {links : List (Comparison × Expr)}
    (derives : nested.Deriving levels)
    (earlier : LinksSoFar levels before links) :
    Takes (linkStep nested links) fun taken following =>
      LinksSoFar levels (before ++ taken) (following.getD links) := by
  refine takes_comparisonLink.bind ?_
  rintro _ found rfl
  cases found with
  | none => exact pure (by simpa using earlier)
  | some operator =>
      refine (takes_sum derives).bind ?_
      rintro _ _ ⟨operand, fits, rfl, rfl⟩
      obtain ⟨phrases, fit, rfl, trees⟩ := earlier
      refine pure ⟨phrases ++ [(operator, operand)], ?_, by simp, by simp [trees]⟩
      exact List.forall_mem_append.mpr ⟨fit, List.forall_mem_singleton.mpr fits⟩

theorem takes_comparisonChain (derives : nested.Deriving levels) :
    Takes (comparisonChain nested) (Form.comparison.Derived levels) := by
  rw [comparisonChain_eq]
  refine (takes_sum derives).bind ?_
  rintro _ _ ⟨first, fits, rfl, rfl⟩
  have none : LinksSoFar levels [] [] := ⟨[], by simp, rfl, rfl⟩
  refine (repeatFrom (fun _ _ earlier => takes_linkStep derives earlier) none).bind ?_
  rintro _ links ⟨phrases, fit, spelled, trees⟩
  rw [List.nil_append] at spelled
  subst spelled
  refine ite (fun isEmpty => pure ?_) fun nonempty => pure ?_
  · obtain rfl : links = [] := by simpa using isEmpty
    obtain rfl : phrases = [] := by simpa using trees
    exact ⟨first, ⟨.alone rfl fits.derives, fits.levels_le⟩, by simp, rfl⟩
  · have linked : phrases ≠ [] := by
      rintro rfl
      simp_all
    have deep : deepest (phrases.map fun link => link.2.levels) ≤ levels := by
      rw [deepest_le_iff, List.forall_mem_map]
      exact fun link among => (fit link among).levels_le
    exact ⟨.chained first phrases, ⟨.chained linked fits.derives fun link among =>
      (fit link among).derives, Nat.max_le.mpr ⟨fits.levels_le, deep⟩⟩,
      by simp [Phrase.chained], by simp [Phrase.chained, trees]⟩

/-! ## Whole expressions -/

theorem takes_negation (derives : nested.Deriving levels) :
    Takes (negation nested) (Form.negation.Derived levels) := by
  refine eat (derives.negation.bind ?_)
    ((takes_comparisonChain derives).mono fun _ _ derived => derived.alone rfl)
  rintro _ _ ⟨inner, deeper, operand, fits, rfl, rfl⟩
  exact pure ⟨operand.under .not, ⟨.not fits.derives,
    Nat.succ_le_of_lt (Nat.lt_of_le_of_lt fits.levels_le deeper)⟩,
    by simp [Phrase.under, UnaryOperator.symbol], rfl⟩

theorem takes_disjunction (derives : nested.Deriving levels) :
    Takes (disjunction nested) (Form.disjunction.Derived levels) :=
  @takes_leftChain _ .disjunction _ _ rfl
    (@takes_leftChain _ .conjunction _ _ rfl (takes_negation derives))

/-- A conditional is a whole expression, for which one more level is open. -/
theorem takes_conditional (derives : nested.Deriving levels) :
    Takes (conditional nested) (Form.expression.Derived (levels + 1)) := by
  refine (takes_disjunction derives).bind ?_
  rintro _ _ ⟨consequence, fits, rfl, rfl⟩
  refine eat ?_ (pure ⟨_, ⟨.whole fits.derives, Nat.succ_le_succ fits.levels_le⟩, by simp, rfl⟩)
  refine (takes_disjunction derives).bind ?_
  rintro _ _ ⟨condition, conditionFits, rfl, rfl⟩
  refine expect.bind ?_
  rintro _ _ rfl
  refine derives.expression.bind ?_
  rintro _ _ ⟨alternative, alternativeFits, rfl, rfl⟩
  exact pure ⟨_, ⟨.conditional fits.derives conditionFits.derives alternativeFits.derives,
    Nat.succ_le_succ (Nat.max_le.mpr ⟨Nat.max_le.mpr ⟨fits.levels_le, conditionFits.levels_le⟩,
      alternativeFits.levels_le⟩)⟩, by simp, rfl⟩

end Forms

/-- Every parser takes phrases only, however many levels may be opened. -/
theorem deriving_withLevels (levels : Nat) : (withLevels levels).Deriving levels := by
  induction levels with
  | zero => exact ⟨fail, fail, fail⟩
  | succ levels inductionHypothesis =>
      have deeper {form : Form} {parser : TokenParser Expr}
          (takes : Takes parser (form.Derived levels)) :
          Takes parser fun taken tree =>
            ∃ inner < levels + 1, form.Derived inner taken tree :=
        takes.mono fun _ _ derived => ⟨levels, Nat.lt_succ_self levels, derived⟩
      exact ⟨takes_conditional inductionHypothesis, deeper (takes_negation inductionHypothesis),
        deeper (takes_signed inductionHypothesis)⟩

/-- The tokens that parse as an expression are a phrase with that tree. -/
theorem derived_of_parseTokens
    {tokens : List Token}
    {tree : Expr}
    (parsed : parseTokens tokens = .ok tree) :
    Form.expression.Derived maxNesting tokens tree :=
  (deriving_withLevels maxNesting).expression.of_runAll parsed

/--
The parser of expressions accepts exactly the grammar: tokens parse as a tree when they are those
of an expression with this tree that never has more levels open than are allowed.
-/
theorem parseTokens_eq_ok_iff
    (tokens : List Token)
    (tree : Expr) :
    parseTokens tokens = .ok tree ↔
      ∃ levels ≤ maxNesting, Derives .expression ⟨tokens, tree, levels⟩ := by
  constructor
  · intro parsed
    obtain ⟨phrase, fits, rfl, rfl⟩ := derived_of_parseTokens parsed
    exact ⟨phrase.levels, fits.levels_le, fits.derives⟩
  · rintro ⟨levels, few, derives⟩
    rw [derives.parseTokens_eq, limited_of_le few]

end Expression
end TemplatedMarkup
