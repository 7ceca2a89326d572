import TemplatedMarkup.Proofs.Expression.Invariant

/-!
# Evaluation gives lists and dicts of bounded length

No evaluation gives a list or dict longer than the limit for sequences, at any depth, when the
values in its scope have none and the source has no longer dict display or argument list.  A list
display is checked when it is evaluated.  A dict display is not, and an argument list is as long as
the lists that `zip` gives the items of.
-/

namespace TemplatedMarkup

open Expression

/-- The dict displays and the argument lists in an expression are not longer than the limit. -/
abbrev Expression.Expr.Bounded (expression : Expr) : Prop :=
  expression.HasLengths (· ≤ maxSequenceLength)

/--
The lists and dicts inside a value are not longer than the limit, also those in the defaults of
functions, and the bodies of functions are bounded likewise.
-/
inductive Value.Bounded : Value → Prop where
  | none : Bounded .none
  | bool (value : Bool) : Bounded (.bool value)
  | int (value : Int64) : Bounded (.int value)
  | float (value : Float) : Bounded (.float value)
  | str (text : String) : Bounded (.str text)
  | list
      {items : List Value}
      (short : items.length ≤ maxSequenceLength)
      (each : ∀ item ∈ items, Bounded item) :
      Bounded (.list items)
  | dict
      {entries : List (Value × Value)}
      (short : entries.length ≤ maxSequenceLength)
      (keys : ∀ entry ∈ entries, Bounded entry.1)
      (values : ∀ entry ∈ entries, Bounded entry.2) :
      Bounded (.dict entries)
  | function
      {closure : Function}
      (defaults : ∀ parameter ∈ closure.parameters, ∀ default ∈ parameter.default,
        Bounded default)
      (body : closure.body.Bounded) :
      Bounded (.function closure)

/-- Names are bound to values with lists and dicts of bounded length. -/
def Scope.Bounded (scope : Scope) : Prop :=
  ∀ name, ∀ value ∈ scope name, value.Bounded

/-- Evaluation keeps the lengths of lists and dicts bounded, whatever the keys of dicts are. -/
def Value.Bounded.invariant : Invariant where
  Holds := Bounded
  Allowed := (· ≤ maxSequenceLength)
  Keys _ := True
  allowed_max := Nat.le_refl _
  allowed_of_le := Nat.le_trans
  keys_nil := trivial
  keys_setEntry _ _ := trivial
  of_isHashable := by
    intro value hashable
    cases value with
    | none => exact .none
    | bool value => exact .bool value
    | int value => exact .int value
    | float value => exact .float value
    | str text => exact .str text
    | list | dict | function => contradiction
  list_iff := ⟨fun | .list short each => ⟨short, each⟩, fun ⟨short, each⟩ => .list short each⟩
  dict_iff := by
    intro entries
    constructor
    · rintro ⟨⟩
      rename_i short keys values
      exact ⟨short, trivial, fun entry among => ⟨keys entry among, values entry among⟩⟩
    · rintro ⟨short, -, parts⟩
      exact .dict short (fun entry among => (parts entry among).1)
        fun entry among => (parts entry among).2
  of_function := fun | .function defaults body => ⟨defaults, body⟩

/--
Every list and dict in the value of a bounded expression, in a scope of bounded values, is not
longer than the limit, at any depth.
-/
theorem Expression.Expr.bounded_of_eval
    {scope : Scope}
    (scopeBounded : scope.Bounded)
    {expression : Expr}
    (bounded : expression.Bounded)
    {value : Value}
    (evaluated : expression.eval scope = .ok value) :
    value.Bounded :=
  Value.Bounded.invariant.holds_of_eval scopeBounded bounded evaluated

/-- A function repeats its argument, pairs it with a default and puts both into a dict. -/
theorem Expression.Expr.bounded_of_eval_call :
    let function : Function := {
      origin := ⟨0, 0⟩
      name := "f"
      parameters := [⟨"items", .none⟩, ⟨"others", some (.list [.int 7])⟩]
      body := .dict [
        (.literal (.str "twice"), .binary .multiply (.variable "items") (.literal (.int 2))),
        (.literal (.str "pairs"), .call "zip" [.variable "items", .variable "others"])] }
    let scope : Scope := fun name => if name = "f" then some (.function function) else .none
    let expression := Expr.call "f" [.list [.literal (.int 1), .literal (.bool true)]]
    let value := Value.dict [
      (.str "twice", .list [.int 1, .bool true, .int 1, .bool true]),
      (.str "pairs", .list [.list [.int 1, .int 7]])]
    scope.Bounded ∧ expression.Bounded ∧ expression.eval scope = .ok value ∧ value.Bounded := by
  intro function scope expression value
  have body : function.body.Bounded := by
    refine .dict (show 2 ≤ _ by decide) ?_ ?_
    · simp only [List.forall_mem_cons]
      exact ⟨.literal _, .literal _, by simp⟩
    · simp only [List.forall_mem_cons]
      refine ⟨.binary (.reference _) (.literal _), .call (show 2 ≤ _ by decide) ?_, by simp⟩
      simp only [List.forall_mem_cons]
      exact ⟨.reference _, .reference _, by simp⟩
  have scopeBounded : scope.Bounded := by
    intro name value isBound
    simp only [scope] at isBound
    split at isBound
    · obtain rfl := Option.some.inj isBound
      refine .function ?_ body
      have seven : Value.Bounded (.list [.int 7]) :=
        .list (show 1 ≤ _ by decide) (by simp [Value.Bounded.int])
      simpa [function] using seven
    · contradiction
  have bounded : expression.Bounded := by
    refine .call (show 1 ≤ _ by decide) (List.forall_mem_singleton.mpr (.list ?_))
    simp only [List.forall_mem_cons]
    exact ⟨.literal _, .literal _, by simp⟩
  have evaluated : expression.eval scope = .ok value := by cbv
  exact ⟨scopeBounded, bounded, evaluated, bounded_of_eval scopeBounded bounded evaluated⟩

end TemplatedMarkup
