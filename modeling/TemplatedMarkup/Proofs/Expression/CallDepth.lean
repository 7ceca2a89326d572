import TemplatedMarkup.Expression.Eval
import TemplatedMarkup.Proofs.Expression.Tree

/-!
# Evaluation comes to an end

Here an expression is evaluated with a record of the calls that are entered and left, and every
evaluation that is started, of a part or of the body of a function, takes one of a number of steps.
Besides the refusal of calls that are nested too deep nothing else ends it.  From some number of
steps on it is not cut off, its outcome is the value of the expression, and no more calls have been
open at once than may be.
-/

namespace TemplatedMarkup

open Expression

/-- What a record of calls tells. -/
inductive CallEvent where
  /-- The body of a function is entered. -/
  | enter
  /-- The body of a function has a value, or has failed. -/
  | leave
deriving DecidableEq

/-- An evaluation that is cut off or has an outcome, with a record of its calls. -/
structure Metered (Result : Type) where
  /-- The calls that were entered and left, in their order. -/
  events : List CallEvent
  /-- The outcome, unless the evaluation is cut off. -/
  outcome? : Option (Except EvalError Result)

namespace Metered

variable {Result : Type}

/-- An evaluation without calls. -/
def ofOutcome (outcome : Except EvalError Result) : Metered Result :=
  ⟨[], some outcome⟩

/-- An evaluation that is cut off before anything is done. -/
def cutOff : Metered Result :=
  ⟨[], none⟩

/-- The evaluation of the body of a function, which is left when there is an outcome. -/
def asCall (body : Metered Result) : Metered Result :=
  ⟨.enter :: body.events ++ if body.outcome?.isSome then [.leave] else [], body.outcome?⟩

instance : Monad Metered where
  pure value := ofOutcome (.ok value)
  bind first next :=
    match first.outcome? with
    | none => ⟨first.events, none⟩
    | some (.error cause) => ⟨first.events, some (.error cause)⟩
    | some (.ok value) => ⟨first.events ++ (next value).events, (next value).outcome?⟩

instance : MonadLift (Except EvalError) Metered := ⟨ofOutcome⟩

end Metered

/-! ## Metered evaluation -/

section Parts

variable (eval : Expr → Metered Value)

/-- The values of arguments, from the left. -/
def meterArguments : List Expr → Metered (List Value)
  | [] => return []
  | argument :: arguments => do
      let value ← eval argument
      return value :: (← meterArguments arguments)

/-- The values of the items of a list, given the footprint of those before them. -/
def meterItems (size : Nat) : List Expr → Metered (List Value)
  | [] => return []
  | item :: items => do
      let value ← eval item
      let size := saturate (size + value.footprint)
      checkFootprint size
      return value :: (← meterItems size items)

/-- Insert the values of entries into a dict, given the footprint of those before them. -/
def meterEntries
    (size : Nat)
    (inserted : List (Value × Value)) :
    List (Expr × Expr) → Metered (List (Value × Value))
  | [] => return inserted
  | (key, value) :: entries => do
      let key ← eval key
      let value ← eval value
      let size := saturate (saturate (size + key.footprint) + value.footprint)
      checkFootprint size
      meterEntries size (← Value.insert key value inserted) entries

/-- Whether all links of a chain hold, given the value on the left of the first. -/
def meterLinks (left : Value) : List (Comparison × Expr) → Metered Bool
  | [] => return true
  | (relation, operand) :: links => do
      let right ← eval operand
      if ← relation.holds left right then
        meterLinks right links
      else
        return false

/-- The integer of a bound that may be absent. -/
def meterBound : Option Expr → Metered (Option Int64)
  | none => return none
  | some bound => do (← eval bound).sliceBound?

end Parts

/-- Call a function where `depth` calls are open; `eval` evaluates its body. -/
def callMetered
    (eval : Nat → Scope → Expr → Metered Value)
    (depth : Nat)
    (function : Function)
    (arguments : List Value) : Metered Value := do
  if maxCallDepth ≤ depth then
    Metered.ofOutcome (.error .callsTooDeep)
  else
    let scope ← function.bindArguments arguments
    (eval (depth + 1) scope function.body).asCall

/-- The value of an expression where `depth` calls are open, unless it takes too many steps. -/
def evalMetered : Nat → Nat → Scope → Expr → Metered Value
  | 0, _, _, _ => .cutOff
  | steps + 1, depth, scope, expression =>
      let eval := evalMetered steps depth scope
      match expression with
      | .literal value => return .ofLiteral value
      | .variable name =>
          match scope name with
          | some value => return value
          | none => Metered.ofOutcome (.error (.undefinedName name))
      | .list items => do
          checkLength items.length
          return .list (← meterItems eval 2 items)
      | .dict entries => return .dict (← meterEntries eval 2 [] entries)
      | .unary operator operand => do operator.apply (← eval operand)
      | .binary operator left right => do
          let left ← eval left
          if operator.isDecidedBy left then
            return left
          else
            operator.apply left (← eval right)
      | .comparison first links => do
          let first ← eval first
          return .bool (← meterLinks eval first links)
      | .conditional condition consequence alternative => do
          if (← eval condition).truthy then
            eval consequence
          else
            eval alternative
      | .call name arguments => do
          let arguments ← meterArguments eval arguments
          match scope name with
          | some (.function closure) =>
              callMetered (evalMetered steps) depth closure arguments
          | some _ => Metered.ofOutcome (.error (.notCallable name))
          | none =>
              match Builtin.ofName? name with
              | some builtin => builtin.call arguments
              | none => Metered.ofOutcome (.error (.notAFunction name))
      | .method receiver name arguments => do
          let receiver ← eval receiver
          callMethod receiver name (← meterArguments eval arguments)
      | .index collection position => do
          let collection ← eval collection
          collection.item (← eval position)
      | .slice collection start stop step => do
          let collection ← eval collection
          let start ← meterBound eval start
          let stop ← meterBound eval stop
          let step ← meterBound eval step
          collection.slice start stop step

/-! ## Records of calls -/

/-- Every call of a record is left, and no more calls than a number are open at a time. -/
structure OpensAtMost
    (remaining : Nat)
    (events : List CallEvent) : Prop where
  /-- As many calls are entered as are left. -/
  balanced : events.count .enter = events.count .leave
  /-- Up to any event only so many more calls are entered than left. -/
  few : ∀ {front : List CallEvent}, front <+: events →
    front.count .enter ≤ front.count .leave + remaining

namespace OpensAtMost

variable {remaining : Nat} {events others : List CallEvent}

theorem nil (remaining : Nat) : OpensAtMost remaining [] where
  balanced := rfl
  few isFront := by simp [List.prefix_nil.mp isFront]

/-- Calls that are made one after the other are not open together. -/
theorem append
    (opens : OpensAtMost remaining events)
    (othersOpen : OpensAtMost remaining others) :
    OpensAtMost remaining (events ++ others) where
  balanced := by
    rw [List.count_append, List.count_append, opens.balanced, othersOpen.balanced]
  few {front} isFront := by
    rcases List.prefix_or_prefix_of_prefix isFront (List.prefix_append events others) with
      inside | ⟨behind, rfl⟩
    · exact opens.few inside
    · have balanced := opens.balanced
      have few := othersOpen.few ((List.prefix_append_right_inj events).mp isFront)
      rw [List.count_append, List.count_append]
      omega

/-- One more call is open while the body of a function is evaluated. -/
theorem asCall
    (opens : OpensAtMost remaining events) :
    OpensAtMost (remaining + 1) (.enter :: events ++ [.leave]) := by
  have balanced : List.count CallEvent.enter (.enter :: events ++ [.leave]) =
      List.count CallEvent.leave (.enter :: events ++ [.leave]) := by
    simp [opens.balanced]
  refine ⟨balanced, fun {front} isFront => ?_⟩
  rcases List.prefix_concat_iff.mp isFront with rfl | isInside
  · rw [balanced]
    exact Nat.le_add_right _ _
  · rcases List.prefix_cons_iff.mp isInside with rfl | ⟨inside, rfl, isFrontOfEvents⟩
    · exact Nat.zero_le _
    · have few := opens.few isFrontOfEvents
      rw [List.count_cons_self, List.count_cons_of_ne (by decide)]
      omega

end OpensAtMost

/-! ## Evaluations that settle -/

/--
From some number of steps on a metered evaluation is not cut off, has the given outcome, and has no
more calls open at once than a number.
-/
def Settles
    {Result : Type}
    (remaining : Nat)
    (metered : Nat → Metered Result)
    (outcome : Except EvalError Result) : Prop :=
  ∃ limit, ∀ steps, limit ≤ steps →
    (metered steps).outcome? = some outcome ∧ OpensAtMost remaining (metered steps).events

namespace Settles

variable {Result Last : Type} {remaining : Nat}

theorem ofOutcome (outcome : Except EvalError Result) :
    Settles remaining (fun _ => Metered.ofOutcome outcome) outcome :=
  ⟨0, fun _ _ => ⟨rfl, .nil remaining⟩⟩

theorem pure (value : Result) :
    Settles remaining (fun _ => (Pure.pure value : Metered Result)) (Pure.pure value) :=
  ofOutcome (.ok value)

/-- Two evaluations in a row settle when both have enough steps. -/
theorem bind
    {first : Nat → Metered Result}
    {outcome : Except EvalError Result}
    {next : Nat → Result → Metered Last}
    {last : Result → Except EvalError Last}
    (settles : Settles remaining first outcome)
    (nextSettles : ∀ value, outcome = .ok value →
      Settles remaining (fun steps => next steps value) (last value)) :
    Settles remaining (fun steps => first steps >>= next steps) (outcome >>= last) := by
  obtain ⟨limit, within⟩ := settles
  cases outcome with
  | error cause =>
      refine ⟨limit, fun steps enough => ?_⟩
      obtain ⟨ended, opens⟩ := within steps enough
      simp only [Bind.bind, ended]
      exact ⟨rfl, opens⟩
  | ok value =>
      obtain ⟨nextLimit, nextWithin⟩ := nextSettles value rfl
      refine ⟨max limit nextLimit, fun steps enough => ?_⟩
      obtain ⟨ended, opens⟩ := within steps (Nat.le_trans (Nat.le_max_left _ _) enough)
      obtain ⟨nextEnded, nextOpens⟩ :=
        nextWithin steps (Nat.le_trans (Nat.le_max_right _ _) enough)
      simp only [Bind.bind, ended]
      exact ⟨nextEnded, opens.append nextOpens⟩

/-- A body that settles where one call less may be opened settles as a call. -/
theorem asCall
    {body : Nat → Metered Result}
    {outcome : Except EvalError Result}
    (settles : Settles remaining body outcome) :
    Settles (remaining + 1) (fun steps => (body steps).asCall) outcome := by
  obtain ⟨limit, within⟩ := settles
  refine ⟨limit, fun steps enough => ?_⟩
  obtain ⟨ended, opens⟩ := within steps enough
  refine ⟨ended, ?_⟩
  simpa [Metered.asCall, ended] using opens.asCall

/-- An evaluation that takes one more step settles. -/
theorem succ
    {metered : Nat → Metered Result}
    {outcome : Except EvalError Result}
    (settles : Settles remaining (fun steps => metered (steps + 1)) outcome) :
    Settles remaining metered outcome := by
  obtain ⟨limit, within⟩ := settles
  refine ⟨limit + 1, fun steps enough => ?_⟩
  obtain ⟨steps, rfl⟩ := Nat.exists_eq_add_of_le' (Nat.le_of_add_left_le enough)
  exact within steps (Nat.le_of_succ_le_succ enough)

end Settles

/-! ## Parts -/

section Parts

variable
  {remaining : Nat}
  {scope : Scope}
  {run : Function → List Value → Except EvalError Value}
  {eval : Nat → Expr → Metered Value}

/-- Arguments settle when each of them does. -/
theorem settles_meterArguments
    {arguments : List Expr}
    (each : ∀ argument ∈ arguments,
      Settles remaining (fun steps => eval steps argument) (argument.evalWith scope run)) :
    Settles remaining (fun steps => meterArguments (eval steps) arguments)
      (Expr.evalArguments scope run arguments) := by
  induction arguments with
  | nil => exact .pure []
  | cons argument arguments inductionHypothesis =>
      rw [List.forall_mem_cons] at each
      exact each.1.bind fun _ _ => (inductionHypothesis each.2).bind fun _ _ => .pure _

/-- The items of a list display settle when each of them does. -/
theorem settles_meterItems
    {items : List Expr}
    (each : ∀ item ∈ items,
      Settles remaining (fun steps => eval steps item) (item.evalWith scope run))
    (size : Nat) :
    Settles remaining (fun steps => meterItems (eval steps) size items)
      (Expr.evalItems scope run size items) := by
  induction items generalizing size with
  | nil => exact .pure []
  | cons item items inductionHypothesis =>
      rw [List.forall_mem_cons] at each
      exact each.1.bind fun _ _ => (Settles.ofOutcome _).bind fun _ _ =>
        (inductionHypothesis each.2 _).bind fun _ _ => .pure _

/-- The entries of a dict display settle when each key and value does. -/
theorem settles_meterEntries
    {entries : List (Expr × Expr)}
    (each : ∀ entry ∈ entries,
      Settles remaining (fun steps => eval steps entry.1) (entry.1.evalWith scope run) ∧
        Settles remaining (fun steps => eval steps entry.2) (entry.2.evalWith scope run))
    (size : Nat)
    (inserted : List (Value × Value)) :
    Settles remaining (fun steps => meterEntries (eval steps) size inserted entries)
      (Expr.evalEntries scope run size inserted entries) := by
  induction entries generalizing size inserted with
  | nil => exact .pure inserted
  | cons entry entries inductionHypothesis =>
      rw [List.forall_mem_cons] at each
      exact each.1.1.bind fun _ _ => each.1.2.bind fun _ _ => (Settles.ofOutcome _).bind
        fun _ _ => (Settles.ofOutcome _).bind fun _ _ => inductionHypothesis each.2 _ _

/-- The links of a chain settle when each operand does. -/
theorem settles_meterLinks
    {links : List (Comparison × Expr)}
    (each : ∀ link ∈ links,
      Settles remaining (fun steps => eval steps link.2) (link.2.evalWith scope run))
    (left : Value) :
    Settles remaining (fun steps => meterLinks (eval steps) left links)
      (Expr.evalLinks scope run left links) := by
  induction links generalizing left with
  | nil => exact .pure true
  | cons link links inductionHypothesis =>
      rw [List.forall_mem_cons] at each
      refine each.1.bind fun right _ => (Settles.ofOutcome _).bind fun holds _ => ?_
      cases holds with
      | true => exact inductionHypothesis each.2 right
      | false => exact .pure false

/-- A bound settles when its expression does. -/
theorem settles_meterBound
    {bound? : Option Expr}
    (each : ∀ bound ∈ bound?,
      Settles remaining (fun steps => eval steps bound) (bound.evalWith scope run)) :
    Settles remaining (fun steps => meterBound (eval steps) bound?)
      (Expr.evalBound scope run bound?) := by
  cases bound? with
  | none => exact .pure none
  | some bound => exact (each bound rfl).bind fun _ _ => .ofOutcome _

end Parts

/-! ## Expressions and calls -/

/-- An expression settles where the calls that it makes do. -/
theorem settles_evalMetered
    {remaining depth : Nat}
    {scope : Scope}
    {run : Function → List Value → Except EvalError Value}
    (calls : ∀ function arguments,
      Settles remaining (fun steps => callMetered (evalMetered steps) depth function arguments)
        (run function arguments))
    (expression : Expr) :
    Settles remaining (fun steps => evalMetered steps depth scope expression)
      (expression.evalWith scope run) := by
  induction expression using Expr.partsInduction with
  | literal value => exact .succ (.pure _)
  | reference name =>
      refine .succ ?_
      simp only [evalMetered, Expr.evalWith]
      cases scope name with
      | none => exact .ofOutcome _
      | some value => exact .pure value
  | list items each =>
      exact .succ ((Settles.ofOutcome _).bind fun _ _ => (settles_meterItems each 2).bind
        fun _ _ => .pure _)
  | dict entries each => exact .succ ((settles_meterEntries each 2 []).bind fun _ _ => .pure _)
  | unary operator operand settles => exact .succ (settles.bind fun _ _ => .ofOutcome _)
  | binary operator left right leftSettles rightSettles =>
      refine .succ (leftSettles.bind fun value _ => ?_)
      cases operator.isDecidedBy value with
      | true => exact .pure value
      | false => exact rightSettles.bind fun _ _ => .ofOutcome _
  | comparison first links settles each =>
      exact .succ (settles.bind fun value _ => (settles_meterLinks each value).bind
        fun _ _ => .pure _)
  | conditional condition consequence alternative settles consequenceSettles alternativeSettles =>
      refine .succ (settles.bind fun value _ => ?_)
      cases value.truthy with
      | true => exact consequenceSettles
      | false => exact alternativeSettles
  | call name arguments each =>
      refine .succ ((settles_meterArguments each).bind fun values _ => ?_)
      unfold callNamed
      cases scope name with
      | none =>
          cases Builtin.ofName? name with
          | none => exact .ofOutcome _
          | some builtin => exact .ofOutcome _
      | some value =>
          cases value with
          | function closure => exact calls closure values
          | none | bool | int | float | str | list | dict => exact .ofOutcome _
  | method receiver name arguments settles each =>
      exact .succ (settles.bind fun _ _ => (settles_meterArguments each).bind
        fun _ _ => .ofOutcome _)
  | index collection position settles positionSettles =>
      exact .succ (settles.bind fun _ _ => positionSettles.bind fun _ _ => .ofOutcome _)
  | slice collection start stop step settles startSettles stopSettles stepSettles =>
      exact .succ (settles.bind fun _ _ => (settles_meterBound startSettles).bind fun _ _ =>
        (settles_meterBound stopSettles).bind fun _ _ => (settles_meterBound stepSettles).bind
          fun _ _ => .ofOutcome _)

/-- A call settles wherever it is made; where too many calls are open it is refused. -/
theorem settles_callMetered
    {depth remaining : Nat}
    (spare : depth + remaining = maxCallDepth)
    (function : Function)
    (arguments : List Value) :
    Settles remaining (fun steps => callMetered (evalMetered steps) depth function arguments)
      (function.callWithin remaining arguments) := by
  induction remaining generalizing depth function arguments with
  | zero =>
      have tooMany : maxCallDepth ≤ depth := by omega
      simp only [callMetered, if_pos tooMany]
      exact .ofOutcome _
  | succ remaining inductionHypothesis =>
      have mayOpen : ¬maxCallDepth ≤ depth := by omega
      have spareInside : depth + 1 + remaining = maxCallDepth := by omega
      simp only [callMetered, if_neg mayOpen]
      refine (Settles.ofOutcome _).bind fun scope _ => ?_
      exact (settles_evalMetered (inductionHypothesis spareInside) function.body).asCall

/--
Evaluation comes to an end, whatever functions are in the scope and whatever they are called with.
From some number of steps on, the evaluation of an expression and a call of a function are not cut
off, have the outcome of evaluating the expression and of calling the function, and have no more
calls open at once than may be.  A call where so many are open, or more, is an error.
-/
theorem evaluation_settles
    (scope : Scope)
    (expression : Expr)
    (function : Function)
    (arguments : List Value) :
    Settles maxCallDepth (fun steps => evalMetered steps 0 scope expression)
        (expression.eval scope) ∧
      Settles maxCallDepth (fun steps => callMetered (evalMetered steps) 0 function arguments)
        (function.call arguments) ∧
      (∀ steps more, callMetered (evalMetered steps) (maxCallDepth + more) function arguments =
        .ofOutcome (.error .callsTooDeep)) ∧
      EvalError.callsTooDeep.message = "maximum call depth exceeded" := by
  have calls := @settles_callMetered 0 maxCallDepth (Nat.zero_add maxCallDepth)
  refine ⟨settles_evalMetered calls expression, calls function arguments, fun steps more => ?_, rfl⟩
  exact if_pos (Nat.le_add_right maxCallDepth more)

/-- A function that calls its argument with itself, when it is called with itself. -/
example :
    let function : Function := ⟨⟨0, 0⟩, "f", [⟨"a", none⟩], .call "a" [.variable "a"]⟩
    let metered := callMetered (evalMetered 100) 0 function [.function function]
    metered.events = .replicate 32 .enter ++ .replicate 32 .leave ∧
      metered.outcome? = some (.error .callsTooDeep) :=
  ⟨rfl, rfl⟩

end TemplatedMarkup
