import TemplatedMarkup.Expression.Expr

/-!
# Induction over expressions

An expression holds its parts in lists, pairs and options.  The induction of this module gives
the hypothesis for every part, whichever way it is held, and the equations below it say that a
renaming acts on all parts alike.
-/

namespace TemplatedMarkup
namespace Expression
namespace Expr

/-- Prove a property of all expressions from its truth for the parts of each. -/
@[elab_as_elim] theorem partsInduction
    {motive : Expr → Prop}
    (literal : ∀ value, motive (.literal value))
    (reference : ∀ name, motive (.variable name))
    (list : ∀ items, (∀ item ∈ items, motive item) → motive (.list items))
    (dict : ∀ entries, (∀ entry ∈ entries, motive entry.1 ∧ motive entry.2) →
      motive (.dict entries))
    (unary : ∀ operator operand, motive operand → motive (.unary operator operand))
    (binary : ∀ operator left right, motive left → motive right →
      motive (.binary operator left right))
    (comparison : ∀ first links, motive first → (∀ link ∈ links, motive link.2) →
      motive (.comparison first links))
    (conditional : ∀ condition consequence alternative, motive condition →
      motive consequence → motive alternative →
      motive (.conditional condition consequence alternative))
    (call : ∀ name arguments, (∀ argument ∈ arguments, motive argument) →
      motive (.call name arguments))
    (method : ∀ receiver name arguments, motive receiver →
      (∀ argument ∈ arguments, motive argument) → motive (.method receiver name arguments))
    (index : ∀ collection position, motive collection → motive position →
      motive (.index collection position))
    (slice : ∀ collection start stop step, motive collection →
      (∀ bound ∈ start, motive bound) → (∀ bound ∈ stop, motive bound) →
      (∀ bound ∈ step, motive bound) → motive (.slice collection start stop step))
    (expression : Expr) : motive expression := by
  refine @Expr.rec motive (fun items => ∀ item ∈ items, motive item)
    (fun entries => ∀ entry ∈ entries, motive entry.1 ∧ motive entry.2)
    (fun links => ∀ link ∈ links, motive link.2) (fun bound? => ∀ bound ∈ bound?, motive bound)
    (fun entry => motive entry.1 ∧ motive entry.2) (fun link => motive link.2)
    literal reference list dict unary binary comparison conditional call method index slice
    ?_ ?_ ?_ ?_ ?_ ?_ ?_ ?_ ?_ ?_ expression
  · simp
  · intro item items first others
    exact List.forall_mem_cons.mpr ⟨first, others⟩
  · simp
  · intro entry entries first others
    exact List.forall_mem_cons.mpr ⟨first, others⟩
  · simp
  · intro link links first others
    exact List.forall_mem_cons.mpr ⟨first, others⟩
  · simp
  · intro bound holds
    simpa using holds
  · intro key value keyHolds valueHolds
    exact ⟨keyHolds, valueHolds⟩
  · intro comparison operand holds
    exact holds

/-! ## Renaming part by part -/

@[simp] theorem renameItems_eq_map
    (image : String → String)
    (items : List Expr) :
    renameItems image items = items.map (rename image) := by
  induction items with
  | nil => rfl
  | cons item items inductionHypothesis => simp [renameItems, inductionHypothesis]

@[simp] theorem renameEntries_eq_map
    (image : String → String)
    (entries : List (Expr × Expr)) :
    renameEntries image entries =
      entries.map fun entry => (entry.1.rename image, entry.2.rename image) := by
  induction entries with
  | nil => rfl
  | cons entry entries inductionHypothesis => simp [renameEntries, inductionHypothesis]

@[simp] theorem renameLinks_eq_map
    (image : String → String)
    (links : List (Comparison × Expr)) :
    renameLinks image links = links.map fun link => (link.1, link.2.rename image) := by
  induction links with
  | nil => rfl
  | cons link links inductionHypothesis => simp [renameLinks, inductionHypothesis]

@[simp] theorem renameBound_eq_map
    (image : String → String)
    (bound : Option Expr) :
    renameBound image bound = bound.map (rename image) := by
  cases bound <;> rfl

end Expr
end Expression
end TemplatedMarkup
