import TemplatedMarkup.Proofs.Expression.Invariant
import TemplatedMarkup.Proofs.Value.WellFormed

/-!
# Evaluation gives well-formed values

Every dict that an evaluation reaches has distinct, hashable keys when the values in its scope have
such dicts.
-/

namespace TemplatedMarkup

open Value Expression

/-- Names are bound to well-formed values. -/
def Scope.WellFormed (scope : Scope) : Prop :=
  ∀ name, ∀ value ∈ scope name, value.WellFormed

/--
Every evaluation in a scope of well-formed values gives a well-formed value: the dicts inside it
have hashable keys, none of which equals a later one.
-/
theorem Expression.Expr.wellFormed_of_eval
    {scope : Scope}
    (scopeWellFormed : scope.WellFormed)
    {expression : Expr}
    {value : Value}
    (evaluated : expression.eval scope = .ok value) :
    value.WellFormed :=
  WellFormed.invariant.holds_of_eval scopeWellFormed
    (expression.hasLengths_of_forall fun _ => trivial) evaluated

/-- A key that equals an earlier one replaces its value, in a dict that a function builds. -/
theorem Expression.Expr.wellFormed_of_eval_call :
    let shared := Value.dict [(.int 1, .str "a")]
    let function : Function := {
      origin := ⟨0, 0⟩
      name := "f"
      parameters := [⟨"key", .none⟩, ⟨"shared", some shared⟩]
      body := .dict [
        (.variable "key", .literal (.str "x")), (.literal (.bool true), .variable "shared")] }
    let scope : Scope := fun name => if name = "f" then some (.function function) else .none
    let expression := Expr.call "f" [.literal (.int 1)]
    scope.WellFormed ∧
      expression.eval scope = .ok (.dict [(.int 1, shared)]) ∧
      (Value.dict [(.int 1, shared)]).WellFormed := by
  intro shared function scope expression
  have sharedWellFormed : shared.WellFormed :=
    .dict ⟨by simp [isHashable], List.pairwise_singleton _ _⟩ (by simp)
  have scopeWellFormed : scope.WellFormed := by
    intro name value isBound
    simp only [scope] at isBound
    split at isBound
    · obtain rfl := Option.some.inj isBound
      exact .function (by simpa [function] using sharedWellFormed)
    · contradiction
  have evaluated : expression.eval scope = .ok (.dict [(.int 1, shared)]) := by cbv
  exact ⟨scopeWellFormed, evaluated, wellFormed_of_eval scopeWellFormed evaluated⟩

end TemplatedMarkup
