import TemplatedMarkup.Expression.Eval
import TemplatedMarkup.Proofs.Builtin.Invariant

/-!
# Evaluation keeps invariants

An invariant that holds of all values in a scope holds of every value that an expression has there.
The expression and its parts are gone through together, and the functions that they call by the
number of calls that may still be opened.
-/

namespace TemplatedMarkup

open Expression Value Value.Invariant

variable {invariant : Invariant}

/-! ## Operators -/

theorem Expression.UnaryOperator.gives_apply
    (operator : UnaryOperator)
    (operand : Value) :
    Gives invariant.Holds (operator.apply operand) := by
  cases operator with
  | negate => exact gives_negate operand
  | plus => exact gives_plus operand
  | not => exact .ok (invariant.holds_bool _)

theorem Expression.BinaryOperator.gives_apply
    (operator : BinaryOperator)
    {left right : Value}
    (leftHolds : invariant.Holds left)
    (rightHolds : invariant.Holds right) :
    Gives invariant.Holds (operator.apply left right) := by
  cases operator with
  | add => exact gives_add leftHolds rightHolds
  | subtract => exact gives_subtract left right
  | multiply => exact gives_multiply leftHolds rightHolds
  | divide => exact gives_divide left right
  | floorDivide => exact gives_floorDivide left right
  | modulo => exact gives_modulo left right
  | power => exact gives_power left right
  | and =>
      refine .ok ?_
      split <;> assumption
  | or =>
      refine .ok ?_
      split <;> assumption

/-! ## Expressions -/

/-- What an invariant asks of a scope: it holds of every value that a name is bound to. -/
def Value.Invariant.HoldsIn (invariant : Invariant) (scope : Scope) : Prop :=
  ∀ name, ∀ value ∈ scope name, invariant.Holds value

/-- What an expression reads and calls gives values that an invariant holds of. -/
structure Value.Invariant.Supplied
    (invariant : Invariant)
    (scope : Scope)
    (run : Function → List Value → Except EvalError Value) : Prop where
  /-- Names are bound to such values. -/
  bound : invariant.HoldsIn scope
  /-- Functions give such values for such arguments. -/
  calls : ∀ function arguments, invariant.Holds (.function function) →
    (∀ argument ∈ arguments, invariant.Holds argument) →
    Gives invariant.Holds (run function arguments)

section Evaluation

variable
  {scope : Scope}
  {run : Function → List Value → Except EvalError Value}

theorem gives_callNamed
    (supplied : invariant.Supplied scope run)
    {arguments : List Value}
    (list : invariant.Holds (.list arguments))
    (name : String) :
    Gives invariant.Holds (callNamed scope run name arguments) := by
  unfold callNamed
  split
  · rename_i closure isBound
    exact supplied.calls closure arguments (supplied.bound name _ isBound) (of_mem list)
  · exact .error _
  · split
    · exact Builtin.gives_call list _
    · exact .error _

namespace Expression.Expr

mutual

/-- Evaluation keeps an invariant that allows the lengths in the expression. -/
theorem gives_evalWith
    (supplied : invariant.Supplied scope run)
    (expression : Expr)
    (has : expression.HasLengths invariant.Allowed) :
    Gives invariant.Holds (expression.evalWith scope run) := by
  cases expression with
  | literal value => exact .ok (invariant.holds_ofLiteral value)
  | «variable» name =>
      rw [evalWith]
      split
      · rename_i value isBound
        exact .ok (supplied.bound name value isBound)
      · exact .error _
  | list items =>
      cases has with
      | list each =>
          refine (gives_checkLength _).bind fun _ short => ?_
          refine (gives_evalItems supplied 2 items each).bind fun values ⟨asMany, eachHolds⟩ => ?_
          exact .ok (list_of_length_le (by rwa [asMany]) eachHolds)
  | dict entries =>
      cases has with
      | dict allowed keys values =>
          refine (gives_evalEntries supplied 2 .nil entries keys values).bind
            fun inserted ⟨has, few⟩ => .ok ?_
          exact has.dict allowed (by simpa using few)
  | unary operator operand =>
      exact (Gives.any _).bind fun value _ => operator.gives_apply value
  | binary operator left right =>
      cases has with
      | binary leftHas rightHas =>
          refine (gives_evalWith supplied left leftHas).bind fun leftValue leftHolds => ?_
          split
          · exact .ok leftHolds
          · exact (gives_evalWith supplied right rightHas).bind fun rightValue rightHolds =>
              operator.gives_apply leftHolds rightHolds
  | comparison first links =>
      exact (Gives.any _).bind fun _ _ => (Gives.any _).bind fun _ _ =>
        .ok (invariant.holds_bool _)
  | conditional condition consequence alternative =>
      cases has with
      | conditional _ consequenceHas alternativeHas =>
          refine (Gives.any _).bind fun holds _ => ?_
          split
          · exact gives_evalWith supplied consequence consequenceHas
          · exact gives_evalWith supplied alternative alternativeHas
  | call name arguments =>
      cases has with
      | call allowed each =>
          refine (gives_evalArguments supplied arguments each).bind
            fun values ⟨asMany, eachHolds⟩ => ?_
          exact gives_callNamed supplied (list_of_allowed allowed asMany.le eachHolds) name
  | method receiver name arguments =>
      cases has with
      | method receiverHas _ each =>
          refine (gives_evalWith supplied receiver receiverHas).bind fun value holds => ?_
          refine (gives_evalArguments supplied arguments each).bind
            fun values ⟨_, eachHolds⟩ => ?_
          exact gives_callMethod holds eachHolds name
  | index collection position =>
      cases has with
      | index collectionHas _ =>
          refine (gives_evalWith supplied collection collectionHas).bind fun value holds => ?_
          exact (Gives.any _).bind fun place _ => gives_item holds place
  | slice collection start stop step =>
      cases has with
      | slice collectionHas =>
          refine (gives_evalWith supplied collection collectionHas).bind fun value holds => ?_
          refine (Gives.any _).bind fun start _ => (Gives.any _).bind fun stop _ => ?_
          exact (Gives.any _).bind fun step _ => gives_slice holds start stop step

/-- Arguments have one value each. -/
theorem gives_evalArguments
    (supplied : invariant.Supplied scope run)
    (arguments : List Expr)
    (has : ∀ argument ∈ arguments, argument.HasLengths invariant.Allowed) :
    Gives (fun values => values.length = arguments.length ∧
        ∀ value ∈ values, invariant.Holds value)
      (evalArguments scope run arguments) := by
  cases arguments with
  | nil => exact .ok (by simp)
  | cons argument arguments =>
      rw [List.forall_mem_cons] at has
      refine (gives_evalWith supplied argument has.1).bind fun value holds => ?_
      refine (gives_evalArguments supplied arguments has.2).bind
        fun values ⟨asMany, each⟩ => .ok ⟨by simpa using asMany, ?_⟩
      exact List.forall_mem_cons.mpr ⟨holds, each⟩

/-- The items of a list display have one value each. -/
theorem gives_evalItems
    (supplied : invariant.Supplied scope run)
    (size : Nat)
    (items : List Expr)
    (has : ∀ item ∈ items, item.HasLengths invariant.Allowed) :
    Gives (fun values => values.length = items.length ∧ ∀ value ∈ values, invariant.Holds value)
      (evalItems scope run size items) := by
  cases items with
  | nil => exact .ok (by simp)
  | cons item items =>
      rw [List.forall_mem_cons] at has
      refine (gives_evalWith supplied item has.1).bind fun value holds => ?_
      refine (Gives.any _).bind fun _ _ => ?_
      refine (gives_evalItems supplied _ items has.2).bind
        fun values ⟨asMany, each⟩ => .ok ⟨by simpa using asMany, ?_⟩
      exact List.forall_mem_cons.mpr ⟨holds, each⟩

/-- The entries of a dict display add one entry each at most. -/
theorem gives_evalEntries
    (supplied : invariant.Supplied scope run)
    (size : Nat)
    {inserted : List (Value × Value)}
    (insertedHas : invariant.Entries inserted)
    (entries : List (Expr × Expr))
    (keysHave : ∀ entry ∈ entries, entry.1.HasLengths invariant.Allowed)
    (valuesHave : ∀ entry ∈ entries, entry.2.HasLengths invariant.Allowed) :
    Gives (fun result => invariant.Entries result ∧
        result.length ≤ inserted.length + entries.length)
      (evalEntries scope run size inserted entries) := by
  match entries with
  | [] => exact .ok ⟨insertedHas, Nat.le_refl _⟩
  | (key, value) :: entries =>
      rw [List.forall_mem_cons] at keysHave valuesHave
      refine (Gives.any _).bind fun keyValue _ => ?_
      refine (gives_evalWith supplied value valuesHave.1).bind fun value holds => ?_
      refine (Gives.any _).bind fun _ _ => ?_
      refine (gives_insert insertedHas holds).bind fun inserted ⟨stillHas, oneMore⟩ => ?_
      refine (gives_evalEntries supplied _ stillHas entries keysHave.2 valuesHave.2).mono
        fun last ⟨lastHas, more⟩ => ⟨lastHas, ?_⟩
      rw [List.length_cons]
      omega

end

end Expression.Expr

end Evaluation

/-! ## Calls -/

namespace Closure

/-- An invariant holds in a scope of arguments and defaults. -/
theorem gives_frame
    (name : String)
    {parameters : List (Parameter Value)}
    {arguments : List Value}
    (defaults : ∀ parameter ∈ parameters, ∀ default ∈ parameter.default, invariant.Holds default)
    (each : ∀ argument ∈ arguments, invariant.Holds argument) :
    Gives invariant.HoldsIn (frame name parameters arguments) := by
  induction parameters generalizing arguments with
  | nil => exact .ok fun _ _ nothing => nomatch nothing
  | cons parameter parameters inductionHypothesis =>
      rw [List.forall_mem_cons] at defaults
      rw [frame]
      split
      · exact .error _
      · rename_i value isGiven
        have holds : invariant.Holds value := by
          rcases Option.or_eq_some_iff.mp isGiven with isFirst | ⟨-, isDefault⟩
          · exact each value (List.mem_of_head? isFirst)
          · exact defaults.1 value isDefault
        have others : ∀ argument ∈ arguments.tail, invariant.Holds argument :=
          fun argument among => each argument (List.mem_of_mem_tail among)
        refine (inductionHypothesis defaults.2 others).bind fun scope holdsIn => .ok ?_
        intro name bound isBound
        rcases Option.or_eq_some_iff.mp isBound with isOther | ⟨-, isFirst⟩
        · exact holdsIn name bound isOther
        · split at isFirst
          · obtain rfl := Option.some.inj isFirst
            exact holds
          · contradiction

/-- A call keeps an invariant. -/
theorem gives_callWithin
    (remaining : Nat)
    {function : Function}
    {arguments : List Value}
    (holds : invariant.Holds (.function function))
    (each : ∀ argument ∈ arguments, invariant.Holds argument) :
    Gives invariant.Holds (callWithin remaining function arguments) := by
  induction remaining generalizing function arguments with
  | zero => exact .error _
  | succ remaining inductionHypothesis =>
      obtain ⟨defaults, has⟩ := invariant.of_function holds
      have bound : Gives invariant.HoldsIn (bindArguments function arguments) := by
        unfold bindArguments
        split
        · exact .error _
        · exact gives_frame function.name defaults each
      refine bound.bind fun scope holdsIn => ?_
      exact function.body.gives_evalWith ⟨holdsIn, fun _ _ => inductionHypothesis⟩ has

end Closure

/--
An invariant that holds of all values in a scope holds of the value of every expression whose dict
displays and argument lists have lengths that the invariant allows.
-/
theorem Value.Invariant.holds_of_eval
    {scope : Scope}
    (holdsIn : invariant.HoldsIn scope)
    {expression : Expr}
    (has : expression.HasLengths invariant.Allowed)
    {value : Value}
    (evaluated : expression.eval scope = .ok value) :
    invariant.Holds value :=
  expression.gives_evalWith ⟨holdsIn, fun _ _ => Closure.gives_callWithin maxCallDepth⟩ has
    value evaluated

end TemplatedMarkup
