import TemplatedMarkup.Proofs.Expression.Deriving

/-!
# The height of parsed trees

A tree can be higher than the nesting levels of its tokens, because operators of one level are
grouped from the left and items, slices and method calls follow each other without a new level.
All other steps down a tree are bounded by the levels: at most eight belong to each level.
-/

namespace TemplatedMarkup
namespace Expression

/-! ## Steps to the left -/

namespace Expr

mutual

/--
The largest number of steps to the left on a way down a tree.  A step goes to the left if it goes
from an operator other than a power to its left operand, or from an item, a slice or a method call
to what it is taken of.
-/
def leftSteps : Expr → Nat
  | .literal _ => 0
  | .variable _ => 0
  | .list items => leftStepsItems items
  | .dict entries => leftStepsEntries entries
  | .unary _ operand => operand.leftSteps
  | .binary .power left right => max left.leftSteps right.leftSteps
  | .binary _ left right => max (left.leftSteps + 1) right.leftSteps
  | .comparison first links => max first.leftSteps (leftStepsLinks links)
  | .conditional condition consequence alternative =>
      max condition.leftSteps (max consequence.leftSteps alternative.leftSteps)
  | .call _ arguments => leftStepsItems arguments
  | .method receiver _ arguments => max (receiver.leftSteps + 1) (leftStepsItems arguments)
  | .index collection position => max (collection.leftSteps + 1) position.leftSteps
  | .slice collection start stop step =>
      max (collection.leftSteps + 1) (max (leftStepsBound start)
        (max (leftStepsBound stop) (leftStepsBound step)))

/-- The largest number of steps to the left in an expression of a list, and zero for none. -/
def leftStepsItems : List Expr → Nat
  | [] => 0
  | item :: items => max item.leftSteps (leftStepsItems items)

/-- The largest number of steps to the left in a key or a value, and zero for none. -/
def leftStepsEntries : List (Expr × Expr) → Nat
  | [] => 0
  | (key, value) :: entries => max (max key.leftSteps value.leftSteps) (leftStepsEntries entries)

/-- The largest number of steps to the left in an operand of a chain, and zero for none. -/
def leftStepsLinks : List (Comparison × Expr) → Nat
  | [] => 0
  | (_, operand) :: links => max operand.leftSteps (leftStepsLinks links)

/-- The number of steps to the left in a bound, and zero for an absent one. -/
def leftStepsBound : Option Expr → Nat
  | none => 0
  | some bound => bound.leftSteps

end

end Expr

open TokenParser TemplatedMarkup.Expression.Expr

/-- How many steps down a tree stay on one level of nesting below a form, but those to the left. -/
def Form.slack : Form → Nat
  | .expression => 0
  | .disjunction => 7
  | .conjunction => 6
  | .negation | .comparison => 5
  | .sum => 4
  | .product => 3
  | .signed | .power => 2
  | .trailers | .atom => 1

/-- The tree of a phrase is no higher than its levels and its steps to the left allow. -/
def Phrase.Within
    (slack : Nat)
    (phrase : Phrase) : Prop :=
  phrase.tree.height ≤ 8 * phrase.levels + phrase.tree.leftSteps + slack

section Within

variable {slack : Nat} {phrases : List Phrase}

/-- Phrases in a list are one step below it. -/
theorem heightItems_le
    (within : ∀ phrase ∈ phrases, phrase.Within slack) :
    heightItems (phrases.map Phrase.tree) ≤ 8 * deepest (phrases.map Phrase.levels) +
      leftStepsItems (phrases.map Phrase.tree) + (slack + 1) := by
  induction phrases with
  | nil => simp [heightItems]
  | cons phrase phrases inductionHypothesis =>
      rw [List.forall_mem_cons] at within
      have first := within.1
      have others := inductionHypothesis within.2
      unfold Phrase.Within at first
      simp only [List.map_cons, heightItems, leftStepsItems, deepest, List.foldr_cons] at others ⊢
      omega

theorem heightEntries_le
    {entries : List (Phrase × Phrase)}
    (keysWithin : ∀ entry ∈ entries, entry.1.Within slack)
    (valuesWithin : ∀ entry ∈ entries, entry.2.Within slack) :
    heightEntries (entries.map fun entry => (entry.1.tree, entry.2.tree)) ≤
      8 * deepest (entries.map fun entry => max entry.1.levels entry.2.levels) +
        leftStepsEntries (entries.map fun entry => (entry.1.tree, entry.2.tree)) + (slack + 1) := by
  induction entries with
  | nil => simp [heightEntries]
  | cons entry entries inductionHypothesis =>
      rw [List.forall_mem_cons] at keysWithin valuesWithin
      have key := keysWithin.1
      have value := valuesWithin.1
      have others := inductionHypothesis keysWithin.2 valuesWithin.2
      unfold Phrase.Within at key value
      simp only [List.map_cons, heightEntries, leftStepsEntries, deepest, List.foldr_cons] at *
      omega

theorem heightLinks_le
    {links : List (Comparison × Phrase)}
    (within : ∀ link ∈ links, link.2.Within slack) :
    heightLinks (links.map fun link => (link.1, link.2.tree)) ≤
      8 * deepest (links.map fun link => link.2.levels) +
        leftStepsLinks (links.map fun link => (link.1, link.2.tree)) + (slack + 1) := by
  induction links with
  | nil => simp [heightLinks]
  | cons link links inductionHypothesis =>
      rw [List.forall_mem_cons] at within
      have first := within.1
      have others := inductionHypothesis within.2
      unfold Phrase.Within at first
      simp only [List.map_cons, heightLinks, leftStepsLinks, deepest, List.foldr_cons] at others ⊢
      omega

theorem heightBound_le
    {bound : Option Phrase}
    (within : ∀ phrase ∈ bound, phrase.Within slack) :
    heightBound (bound.map Phrase.tree) ≤ 8 * bound.elim 0 Phrase.levels +
      leftStepsBound (bound.map Phrase.tree) + (slack + 1) := by
  cases bound with
  | none => simp [heightBound]
  | some phrase =>
      have inner := within phrase rfl
      unfold Phrase.Within at inner
      simp only [Option.map_some, Option.elim_some, heightBound, leftStepsBound]
      omega

theorem Form.slack_le_of_tighter
    {form tighter : Form}
    (next : form.tighter = some tighter) :
    tighter.slack ≤ form.slack := by
  cases form <;> cases next <;> decide

/-- An operand to the right of an operator is of a tighter form, which makes up for the step. -/
theorem Form.slack_lt_of_operators
    {form tighter : Form}
    {operator : BinaryOperator}
    (next : form.tighter = some tighter)
    (isOperator : operator ∈ form.operators) :
    operator ≠ .power ∧ tighter.slack < form.slack := by
  cases form <;> simp only [Form.operators, List.not_mem_nil] at isOperator <;> cases next <;>
    refine ⟨?_, by decide⟩ <;> rintro rfl <;> simp at isOperator

/-- The tree of a phrase is as high as its levels, its steps to the left and its form allow. -/
theorem Derives.within
    {form : Form}
    {phrase : Phrase}
    (derives : Derives form phrase) :
    phrase.Within form.slack := by
  induction derives with
  | whole _ body =>
      simp only [Phrase.Within, Form.slack] at *
      omega
  | conditional _ _ _ consequence condition alternative =>
      simp only [Phrase.Within, Form.slack, height, leftSteps] at *
      omega
  | alone next _ body =>
      have looser := Form.slack_le_of_tighter next
      unfold Phrase.Within at *
      omega
  | @joined form tighter operator left right next isOperator _ _ leftWithin rightWithin =>
      obtain ⟨notPower, looser⟩ := Form.slack_lt_of_operators next isOperator
      have steps : (Phrase.joined operator left right).tree.leftSteps =
          max (left.tree.leftSteps + 1) right.tree.leftSteps := by
        cases operator <;> first | rfl | contradiction
      have high : (Phrase.joined operator left right).tree.height =
          max left.tree.height right.tree.height + 1 := by
        simp [Phrase.joined, height]
      simp only [Phrase.Within, steps, high] at *
      simp only [Phrase.joined]
      omega
  | not _ operand =>
      simp only [Phrase.Within, Phrase.under, Form.slack, height, leftSteps] at *
      omega
  | chained _ _ _ first links =>
      have linksHigh := heightLinks_le links
      simp only [Phrase.Within, Phrase.chained, Form.slack, height, leftSteps] at *
      omega
  | sign _ _ operand =>
      simp only [Phrase.Within, Phrase.under, Form.slack, height, leftSteps] at *
      omega
  | power _ _ base exponent =>
      simp only [Phrase.Within, Form.slack, height, leftSteps] at *
      omega
  | index _ _ subject position =>
      simp only [Phrase.Within, Form.slack, height, leftSteps] at *
      omega
  | slice _ _ _ _ _ subject start stop step =>
      have startHigh := heightBound_le start
      have stopHigh := heightBound_le stop
      have stepHigh := heightBound_le step
      simp only [Phrase.Within, Phrase.sliced, Form.slack, height, leftSteps, deepest,
        List.map_cons, List.map_nil, List.foldr_cons, List.foldr_nil] at *
      -- each part for itself, since all the maxima at once are too many cases
      refine Nat.max_le.mpr ⟨?_, Nat.max_le.mpr ⟨?_, Nat.max_le.mpr ⟨?_, ?_⟩⟩⟩ <;> omega
  | method _ _ receiver arguments =>
      have argumentsHigh := heightItems_le arguments
      simp only [Phrase.Within, Form.slack, height, leftSteps] at *
      omega
  | constant _ => simp [Phrase.Within, height]
  | strings _ => simp [Phrase.Within, height]
  | reference _ => simp [Phrase.Within, height]
  | call _ _ arguments => exact heightItems_le arguments
  | parenthesized _ body =>
      simp only [Phrase.Within, Form.slack] at *
      omega
  | list _ items => exact heightItems_le items
  | dict _ _ keys values => exact heightEntries_le keys values

end Within

/-! ## Parsed trees -/

/--
The nesting limit bounds the height of a parsed tree up to its steps to the left, so a tree is no
higher than sixteen times the limit when these are at most eight times the limit.
-/
theorem height_le_of_parse
    {source : String}
    {tree : Expr}
    (parsed : parse source = .ok tree) :
    tree.height ≤ 8 * maxNesting + tree.leftSteps ∧
      (tree.leftSteps ≤ 8 * maxNesting → tree.height ≤ 16 * maxNesting) := by
  have bounded : tree.height ≤ 8 * maxNesting + tree.leftSteps := by
    unfold parse at parsed
    cases lexed : tokenize source with
    | error cause =>
        rw [lexed] at parsed
        contradiction
    | ok tokens =>
        rw [lexed] at parsed
        obtain ⟨phrase, fits, -, rfl⟩ := derived_of_parseTokens parsed
        have within := fits.derives.within
        have few := fits.levels_le
        unfold Phrase.Within at within
        simp only [Form.slack] at within
        omega
  exact ⟨bounded, fun fewSteps => by omega⟩

/-! ## Sums of ones -/

section Ones

/-- The source of a sum of ones with a number of operators. -/
def onesSource (operators : Nat) : List Char :=
  '1' :: (List.replicate operators ['+', '1']).flatten

/-- The tokens of a sum of ones. -/
def onesTokens (operators : Nat) : List Token :=
  .int 1 :: (List.replicate operators [.symbol .plus, .int 1]).flatten

/-- The tree of a sum of ones, which goes down to the left. -/
def onesTree : Nat → Expr
  | 0 => .literal (.int 1)
  | operators + 1 => .binary .add (onesTree operators) (.literal (.int 1))

theorem lex_onesSource (operators : Nat) :
    lex (onesSource operators) = .ok (onesTokens operators) := by
  have one {rest : List Char} (apart : StartsApart rest) :
      lex ('1' :: rest) = (lex rest).map (.int 1 :: ·) :=
    @lex_toDigits 1 rest (by decide) apart
  unfold onesSource onesTokens
  induction operators with
  | zero =>
      rw [List.replicate_zero, List.flatten_nil, one startsApart_nil, lex_nil]
      rfl
  | succ operators inductionHypothesis =>
      have plus : '+' ∈ singleCharacters := by decide
      rw [List.replicate_succ, List.flatten_cons, List.cons_append, one (startsApart_single plus _),
        lex_single plus, List.singleton_append, inductionHypothesis]
      rfl

theorem derives_onesTokens (operators : Nat) :
    Derives .sum ⟨onesTokens operators, onesTree operators, 0⟩ := by
  have one (form : Form) (inside : 0 < form.rank) :
      Derives form ⟨[.int 1], .literal (.int 1), 0⟩ :=
    (Derives.constant rfl).loosen inside (by cases form <;> decide)
  induction operators with
  | zero => exact one .sum (by decide)
  | succ operators inductionHypothesis =>
      have longer : onesTokens (operators + 1) =
          onesTokens operators ++ [.symbol .plus, .int 1] := by
        simp [onesTokens, List.replicate_succ']
      rw [longer]
      exact @Derives.joined .sum _ .add _ _ rfl (by decide) inductionHypothesis
        (one .product (by decide))

/-- A sum is read however many operators it has, since it opens one level only. -/
theorem parse_onesSource (operators : Nat) :
    parse (.ofList (onesSource operators)) = .ok (onesTree operators) := by
  have whole := ((derives_onesTokens operators).loosen (show 0 < Form.disjunction.rank by decide)
    (by decide)).whole
  have few : 0 + 1 ≤ maxNesting := by decide
  rw [parse, tokenize, String.toList_ofList, lex_onesSource]
  exact whole.parseTokens_eq.trans (limited_of_le few _)

theorem height_onesTree (operators : Nat) :
    (onesTree operators).height = operators ∧ (onesTree operators).leftSteps = operators := by
  induction operators with
  | zero => exact ⟨rfl, rfl⟩
  | succ operators inductionHypothesis =>
      simp [onesTree, height, leftSteps, inductionHypothesis]

end Ones

/-- A sum with as many operators as steps to the left are allowed. -/
theorem height_le_of_parse_ones :
    parse (.ofList (onesSource 512)) = .ok (onesTree 512) ∧
      (onesTree 512).leftSteps ≤ 8 * maxNesting ∧ (onesTree 512).height ≤ 16 * maxNesting := by
  have few : (onesTree 512).leftSteps ≤ 8 * maxNesting := by
    rw [(height_onesTree 512).2]
    decide
  exact ⟨parse_onesSource 512, few, (height_le_of_parse (parse_onesSource 512)).2 few⟩

/-- A sum with more operators is higher than sixteen times the nesting limit. -/
theorem parse_ones_height_gt :
    parse (.ofList (onesSource 1025)) = .ok (onesTree 1025) ∧
      16 * maxNesting < (onesTree 1025).height := by
  refine ⟨parse_onesSource 1025, ?_⟩
  rw [(height_onesTree 1025).1]
  decide

end Expression
end TemplatedMarkup
