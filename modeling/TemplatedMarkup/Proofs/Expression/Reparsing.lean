import TemplatedMarkup.Proofs.Expression.Accepting
import TemplatedMarkup.Proofs.Expression.ReadBack

/-!
# The tokens of a printed expression in the grammar

The tokens of an expression that a source can write are a phrase whose tree is the expression
with its constants read back, and whose levels are those that `nesting` counts.  They are an
atom and trailers, since every operator form is printed between parentheses.
-/

namespace TemplatedMarkup
namespace Expression
namespace Expr

/-! ## Lists of parts -/

theorem linksTokens_eq_flatMap (links : List (Comparison × Expr)) :
    linksTokens links = links.flatMap fun link => link.1.tokens ++ link.2.tokens := by
  induction links with
  | nil => rfl
  | cons link links inductionHypothesis => simp [linksTokens, inductionHypothesis]

theorem readBackItems_eq_map (items : List Expr) :
    readBackItems items = items.map readBack := by
  induction items with
  | nil => rfl
  | cons item items inductionHypothesis => simp [readBackItems, inductionHypothesis]

theorem readBackEntries_eq_map (entries : List (Expr × Expr)) :
    readBackEntries entries = entries.map fun entry => (entry.1.readBack, entry.2.readBack) := by
  induction entries with
  | nil => rfl
  | cons entry entries inductionHypothesis => simp [readBackEntries, inductionHypothesis]

theorem readBackLinks_eq_map (links : List (Comparison × Expr)) :
    readBackLinks links = links.map fun link => (link.1, link.2.readBack) := by
  induction links with
  | nil => rfl
  | cons link links inductionHypothesis => simp [readBackLinks, inductionHypothesis]

theorem nestingItems_eq_deepest (items : List Expr) :
    nestingItems items = deepest (items.map fun item => item.nesting + 1) := by
  induction items with
  | nil => rfl
  | cons item items inductionHypothesis => simp [nestingItems, inductionHypothesis, deepest]

theorem nestingEntries_eq_deepest (entries : List (Expr × Expr)) :
    nestingEntries entries = deepest (entries.map fun entry =>
      max (entry.1.nesting + 1) (entry.2.nesting + 1)) := by
  induction entries with
  | nil => rfl
  | cons entry entries inductionHypothesis => simp [nestingEntries, inductionHypothesis, deepest]

theorem nestingLinks_eq_deepest (links : List (Comparison × Expr)) :
    nestingLinks links = deepest (links.map fun link => link.2.nesting) := by
  induction links with
  | nil => rfl
  | cons link links inductionHypothesis => simp [nestingLinks, inductionHypothesis, deepest]

/-! ## The phrase of an expression -/

/-- The tokens of an expression with the tree that they stand for. -/
def phrase (expression : Expr) : Phrase where
  tokens := expression.tokens
  tree := expression.readBack
  levels := expression.nesting

/-- The phrase of an expression as a whole expression, for which one more level is open. -/
def wholePhrase (expression : Expr) : Phrase :=
  { expression.phrase with levels := expression.nesting + 1 }

theorem itemsTokens_eq_wholePhrase (items : List Expr) :
    itemsTokens items = listed false ((items.map wholePhrase).map Phrase.tokens) := by
  rw [itemsTokens_eq, List.map_map]
  rfl

theorem readBackItems_eq_wholePhrase (items : List Expr) :
    readBackItems items = (items.map wholePhrase).map Phrase.tree := by
  rw [readBackItems_eq_map, List.map_map]
  rfl

theorem nestingItems_eq_wholePhrase (items : List Expr) :
    nestingItems items = deepest ((items.map wholePhrase).map Phrase.levels) := by
  rw [nestingItems_eq_deepest, List.map_map]
  rfl

section Forms

variable {expression : Expr}

/-- An atom with trailers is a whole expression. -/
theorem derives_wholePhrase (derives : Derives .trailers expression.phrase) :
    Derives .expression expression.wholePhrase :=
  .whole (derives.loosen (by decide) (by decide))

theorem derives_wholePhrases
    {items : List Expr}
    (derives : ∀ item ∈ items, Derives .trailers item.phrase) :
    ∀ item ∈ items.map wholePhrase, Derives .expression item :=
  List.forall_mem_map.mpr fun item among => derives_wholePhrase (derives item among)

/-- What is printed between parentheses is an atom. -/
theorem derives_parenthesized
    {body : Phrase}
    (derives : Derives .disjunction body) :
    Derives .trailers ⟨.symbol .leftParen :: body.tokens ++ [.symbol .rightParen], body.tree,
      body.levels + 1⟩ :=
  .alone rfl (.parenthesized (.whole derives))

/-- The token of a constant is an atom. -/
theorem derives_literal (value : Literal) : Derives .trailers (literal value).phrase := by
  refine .alone rfl ?_
  cases value with
  | none => exact .constant rfl
  | bool value => cases value <;> exact .constant rfl
  | int value => exact .constant rfl
  | str text =>
      have single := Derives.strings (List.cons_ne_nil text [])
      simpa [String.join, phrase, tokens, readBack, nesting, Literal.token, Literal.readBack]
        using single
  | float value =>
      simp only [phrase, tokens, readBack, nesting, Literal.token, Literal.readBack]
      split
      · exact .constant rfl
      · split
        · exact .constant rfl
        · exact .reference (by decide)

theorem derives_unary
    {operand : Expr}
    (operator : UnaryOperator)
    (derives : Derives .trailers operand.phrase) :
    Derives .disjunction (.under operator operand.phrase) := by
  by_cases isNot : operator = .not
  · subst isNot
    exact (Derives.not (derives.loosen (by decide) (by decide))).loosen (by decide) (by decide)
  · exact (Derives.sign isNot (derives.loosen (by decide) (by decide))).loosen (by decide)
      (by decide)

/-- Every operator between two operands but the power joins the phrases of some form. -/
theorem exists_form_of_ne_power
    {operator : BinaryOperator}
    (noPower : operator ≠ .power) :
    ∃ form tighter : Form, form.tighter = some tighter ∧ operator ∈ form.operators ∧
      0 < form.rank ∧ form.rank < Form.trailers.rank := by
  cases operator with
  | power => contradiction
  | or => exact ⟨.disjunction, _, rfl, by decide, by decide, by decide⟩
  | and => exact ⟨.conjunction, _, rfl, by decide, by decide, by decide⟩
  | add | subtract => exact ⟨.sum, _, rfl, by decide, by decide, by decide⟩
  | multiply | divide | floorDivide | modulo =>
      exact ⟨.product, _, rfl, by decide, by decide, by decide⟩

theorem derives_joined
    {left right : Expr}
    {operator : BinaryOperator}
    (noPower : operator ≠ .power)
    (derivesLeft : Derives .trailers left.phrase)
    (derivesRight : Derives .trailers right.phrase) :
    Derives .disjunction (.joined operator left.phrase right.phrase) := by
  obtain ⟨form, tighter, next, among, inside, below⟩ := exists_form_of_ne_power noPower
  have rank := Form.rank_of_tighter next
  exact (Derives.joined next among (derivesLeft.loosen inside (by omega))
    (derivesRight.loosen (by omega) (by omega))).loosen (by decide) inside

theorem derives_power
    {left right : Expr}
    (derivesLeft : Derives .trailers left.phrase)
    (derivesRight : Derives .trailers right.phrase) :
    Derives .disjunction
      ⟨left.tokens ++ .symbol .doubleStar :: right.tokens,
        .binary .power left.readBack right.readBack,
        max left.nesting (right.nesting + 1)⟩ :=
  (Derives.power derivesLeft (derivesRight.loosen (by decide) (by decide))).loosen (by decide)
    (by decide)

theorem derives_binary
    {left right : Expr}
    (operator : BinaryOperator)
    (derivesLeft : Derives .trailers left.phrase)
    (derivesRight : Derives .trailers right.phrase) :
    Derives .trailers (binary operator left right).phrase := by
  by_cases isPower : operator = .power
  · subst isPower
    exact derives_parenthesized (derives_power derivesLeft derivesRight)
  · have nested : (binary operator left right).nesting = max left.nesting right.nesting + 1 := by
      cases operator <;> first | rfl | contradiction
    simpa [phrase, Phrase.joined, tokens, readBack, nested] using
      derives_parenthesized (derives_joined isPower derivesLeft derivesRight)

theorem derives_list
    {items : List Expr}
    (derives : ∀ item ∈ items, Derives .trailers item.phrase) :
    Derives .trailers (list items).phrase := by
  have display := @Derives.list _ false (derives_wholePhrases derives)
  rw [← itemsTokens_eq_wholePhrase, ← readBackItems_eq_wholePhrase,
    ← nestingItems_eq_wholePhrase] at display
  exact .alone rfl display

theorem derives_call
    {name : String}
    {arguments : List Expr}
    (own : isReserved name = false)
    (derives : ∀ argument ∈ arguments, Derives .trailers argument.phrase) :
    Derives .trailers (call name arguments).phrase := by
  have called := @Derives.call name _ false own (derives_wholePhrases derives)
  rw [Phrase.argumentTokens, ← itemsTokens_eq_wholePhrase, ← readBackItems_eq_wholePhrase,
    ← nestingItems_eq_wholePhrase] at called
  exact .alone rfl called

theorem derives_method
    {receiver : Expr}
    {arguments : List Expr}
    (name : String)
    (derivesReceiver : Derives .trailers receiver.phrase)
    (derivesArguments : ∀ argument ∈ arguments, Derives .trailers argument.phrase) :
    Derives .trailers (method receiver name arguments).phrase := by
  have called := @Derives.method _ name _ false derivesReceiver
    (derives_wholePhrases derivesArguments)
  rw [Phrase.argumentTokens, ← itemsTokens_eq_wholePhrase, ← readBackItems_eq_wholePhrase,
    ← nestingItems_eq_wholePhrase] at called
  simpa [phrase, tokens, readBack, nesting] using called

theorem derives_dict
    {entries : List (Expr × Expr)}
    (derivesKeys : ∀ entry ∈ entries, Derives .trailers entry.1.phrase)
    (derivesValues : ∀ entry ∈ entries, Derives .trailers entry.2.phrase) :
    Derives .trailers (dict entries).phrase := by
  have display := @Derives.dict
    (entries.map fun entry => (entry.1.wholePhrase, entry.2.wholePhrase)) false
    (List.forall_mem_map.mpr fun entry among => derives_wholePhrase (derivesKeys entry among))
    (List.forall_mem_map.mpr fun entry among => derives_wholePhrase (derivesValues entry among))
  simp only [List.map_map] at display
  refine .alone rfl ?_
  rw [phrase, tokens, readBack, nesting, entriesTokens_eq, readBackEntries_eq_map,
    nestingEntries_eq_deepest]
  exact display

theorem derives_comparison
    {first : Expr}
    {links : List (Comparison × Expr)}
    (nonempty : links ≠ [])
    (derivesFirst : Derives .trailers first.phrase)
    (derivesLinks : ∀ link ∈ links, Derives .trailers link.2.phrase) :
    Derives .trailers (comparison first links).phrase := by
  have chain := @Derives.chained _ (links.map fun link => (link.1, link.2.phrase))
    (by simpa using nonempty) (derivesFirst.loosen (by decide) (by decide))
    (List.forall_mem_map.mpr fun link among =>
      (derivesLinks link among).loosen (by decide) (by decide))
  have parenthesized := derives_parenthesized (chain.loosen (by decide) (by decide))
  rw [phrase, tokens, readBack, nesting, linksTokens_eq_flatMap, readBackLinks_eq_map,
    nestingLinks_eq_deepest]
  simpa [Phrase.chained, phrase, List.flatMap_map, Function.comp_def] using parenthesized

theorem derives_conditional
    {condition consequence alternative : Expr}
    (derivesCondition : Derives .trailers condition.phrase)
    (derivesConsequence : Derives .trailers consequence.phrase)
    (derivesAlternative : Derives .trailers alternative.phrase) :
    Derives .trailers (conditional condition consequence alternative).phrase := by
  have choice := Derives.conditional (derivesConsequence.loosen (by decide) (by decide))
    (derivesCondition.loosen (by decide) (by decide)) (derives_wholePhrase derivesAlternative)
  exact .alone rfl (.parenthesized choice)

theorem derives_slice
    {collection : Expr}
    {start stop step : Option Expr}
    (derivesCollection : Derives .trailers collection.phrase)
    (derivesStart : ∀ bound ∈ start, Derives .trailers bound.phrase)
    (derivesStop : ∀ bound ∈ stop, Derives .trailers bound.phrase)
    (derivesStep : ∀ bound ∈ step, Derives .trailers bound.phrase) :
    Derives .trailers (slice collection start stop step).phrase := by
  have whole
      {bound : Option Expr}
      (derives : ∀ present ∈ bound, Derives .trailers present.phrase) :
      ∀ present ∈ bound.map wholePhrase, Derives .expression present := by
    cases bound with
    | none => simp
    | some present => simpa using derives_wholePhrase (derives present rfl)
  have sliced := @Derives.slice _ (start.map wholePhrase) (stop.map wholePhrase)
    (step.map wholePhrase) step.isSome derivesCollection (whole derivesStart) (whole derivesStop)
    (whole derivesStep) (by cases step <;> simp)
  have tokensOf (bound : Option Expr) :
      (bound.map wholePhrase).elim [] Phrase.tokens = boundTokens bound := by
    cases bound <;> rfl
  have levelsOf (bound : Option Expr) :
      (bound.map wholePhrase).elim 0 Phrase.levels = nestingBound bound := by
    cases bound <;> rfl
  have treeOf (bound : Option Expr) :
      (bound.map wholePhrase).map Phrase.tree = readBackBound bound := by
    cases bound <;> rfl
  have stepOf : (if step.isSome = true then [.symbol .colon] else []) ++ boundTokens step =
      stepTokens step := by
    cases step <;> rfl
  simp only [Phrase.sliced, tokensOf, levelsOf, treeOf, deepest, List.map_cons, List.map_nil,
    List.foldr_cons, List.foldr_nil, Nat.max_zero, ← Nat.max_assoc] at sliced
  rw [List.append_assoc _ _ (boundTokens step), stepOf] at sliced
  exact sliced

/-- The tokens of every writable expression are an atom with trailers. -/
theorem Writable.derives (writable : expression.Writable) :
    Derives .trailers expression.phrase := by
  induction writable with
  | @literal value _ => exact derives_literal value
  | reference own => exact .alone rfl (.reference own.notReserved)
  | list _ items => exact derives_list items
  | dict _ _ keys values => exact derives_dict keys values
  | @unary operator _ _ operand => exact derives_parenthesized (derives_unary operator operand)
  | binary _ _ left right => exact derives_binary _ left right
  | comparison _ nonempty _ first links => exact derives_comparison nonempty first links
  | conditional _ _ _ condition consequence alternative =>
      exact derives_conditional condition consequence alternative
  | call own _ arguments => exact derives_call own.notReserved arguments
  | method _ _ _ receiver arguments => exact derives_method _ receiver arguments
  | index _ _ collection position =>
      exact .index collection (derives_wholePhrase position)
  | slice _ _ _ _ collection start stop step => exact derives_slice collection start stop step

end Forms

end Expr
end Expression
end TemplatedMarkup
