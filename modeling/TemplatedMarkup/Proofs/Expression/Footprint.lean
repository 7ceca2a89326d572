import TemplatedMarkup.Expression.Eval
import TemplatedMarkup.Proofs.Builtin.Footprint

/-!
# Footprints of new lists and dicts

A new list or dict is a sum, a product, a display, or the result of a built-in function or of a
method.  When its operands keep the limit on footprints, it keeps the limit as well, except for what
its own kind of construction leaves out of the count.  A display adds up the footprints of its parts
and leaves out the separators between them.
-/

namespace TemplatedMarkup

open Value

/-! ## Displays -/

namespace Expression.Expr

variable
  {scope : Scope}
  {run : Function → List Value → Except EvalError Value}

/-- The items of a list display keep the limit together, without their separators. -/
theorem gives_weight_evalItems
    (items : List Expr)
    {size : Nat}
    (small : size ≤ maxFootprint) :
    Gives (fun values => size + (values.map weight).sum ≤ maxFootprint)
      (evalItems scope run size items) := by
  induction items generalizing size with
  | nil => exact .ok small
  | cons item items inductionHypothesis =>
      rw [evalItems]
      refine (Gives.any _).bind fun value _ => (gives_checkFootprint _).bind fun _ counted => ?_
      have whole : value.footprint = value.weight :=
        footprint_of_weight_le (weight_le_of_footprint_le (by omega))
      rw [saturate_of_le counted]
      refine (inductionHypothesis counted).bind fun values fewer => .ok ?_
      rw [List.map_cons, List.sum_cons]
      omega

/-- A list display exceeds the limit by no more than its separators. -/
theorem gives_room_list (items : List Expr) :
    Gives (fun result => result.RoomWithin (maxFootprint + 2 * result.entryCount))
      ((list items).evalWith scope run) := by
  rw [evalWith]
  refine (Gives.any _).bind fun _ _ => ?_
  refine (gives_weight_evalItems items (by decide)).bind fun values small => .ok ?_
  refine roomWithin_of_weight_le ?_
  rw [weight_list_eq, entryCount]
  omega

/--
The keys and values of a dict display keep the limit together, without their separators.  A key
that comes again is counted again, but has one entry only.
-/
theorem gives_weight_evalEntries
    (entries : List (Expr × Expr))
    {size : Nat}
    {inserted : List (Value × Value)}
    (small : size ≤ maxFootprint)
    (counted : 2 + (inserted.map fun entry => entry.1.weight + entry.2.weight).sum ≤ size) :
    Gives (fun result =>
        2 + (result.map fun entry => entry.1.weight + entry.2.weight).sum ≤ maxFootprint)
      (evalEntries scope run size inserted entries) := by
  induction entries generalizing size inserted with
  | nil => exact .ok (counted.trans small)
  | cons entry entries inductionHypothesis =>
      rw [evalEntries]
      refine (Gives.any _).bind fun key _ => (Gives.any _).bind fun value _ => ?_
      refine (gives_checkFootprint _).bind fun _ withValue => ?_
      have withKey : size + key.footprint ≤ maxFootprint := le_of_saturate_le (by omega)
      rw [saturate_of_le withKey] at withValue ⊢
      rw [saturate_of_le withValue]
      have keyWhole : key.footprint = key.weight :=
        footprint_of_weight_le (weight_le_of_footprint_le (by omega))
      have valueWhole : value.footprint = value.weight :=
        footprint_of_weight_le (weight_le_of_footprint_le (by omega))
      have first : Gives (fun inserted =>
          2 + (inserted.map fun entry => entry.1.weight + entry.2.weight).sum ≤
            size + key.footprint + value.footprint) (Value.insert key value inserted) := by
        unfold Value.insert
        split
        · have added := sum_setEntry_le key value inserted 0
          exact .ok (by simp only [Nat.add_zero] at added; omega)
        · exact .error _
      exact first.bind fun inserted stillCounted => inductionHypothesis withValue stillCounted

/-- A dict display exceeds the limit by no more than its separators. -/
theorem gives_room_dict (entries : List (Expr × Expr)) :
    Gives (fun result => result.RoomWithin (maxFootprint + 4 * result.entryCount))
      ((dict entries).evalWith scope run) := by
  rw [evalWith]
  refine (gives_weight_evalEntries entries (by decide) (by simp)).bind fun inserted small => .ok ?_
  refine roomWithin_of_weight_le ?_
  rw [weight_dict_eq, entryCount]
  omega

end Expression.Expr

/-! ## Constructions -/

/-- An evaluation step that may give a new list or dict. -/
inductive Construction
  /-- The sum of two values. -/
  | sum (left right : Value)
  /-- The product of two values. -/
  | product (left right : Value)
  /-- A list display. -/
  | listDisplay (items : List Expression.Expr)
  /-- A dict display. -/
  | dictDisplay (entries : List (Expression.Expr × Expression.Expr))
  /-- A call of a built-in function. -/
  | call (builtin : Builtin) (arguments : List Value)
  /-- A call of a method. -/
  | method (receiver : Value) (name : String) (arguments : List Value)

namespace Construction

/-- The values that a construction starts from. -/
def operands : Construction → List Value
  | .sum left right | .product left right => [left, right]
  | .listDisplay _ | .dictDisplay _ => []
  | .call _ arguments => arguments
  | .method receiver _ arguments => receiver :: arguments

/-- What a construction gives in a scope; `run` carries out calls of functions. -/
def outcome
    (scope : Scope)
    (run : Function → List Value → Except EvalError Value) :
    Construction → Except EvalError Value
  | .sum left right => left.add right
  | .product left right => left.multiply right
  | .listDisplay items => (Expression.Expr.list items).evalWith scope run
  | .dictDisplay entries => (Expression.Expr.dict entries).evalWith scope run
  | .call builtin arguments => builtin.call arguments
  | .method receiver name arguments => callMethod receiver name arguments

/-- What the result of a construction has beyond the footprint that is checked. -/
def uncounted (construction : Construction) (result : Value) : Nat :=
  match construction with
  | .sum _ _ => 0
  | .product _ _ => 2 + 2 * result.entryCount
  | .listDisplay _ => 2 * result.entryCount
  | .dictDisplay _ => 4 * result.entryCount
  | .call builtin arguments => builtin.uncounted arguments result
  | .method receiver name _ => methodUncounted receiver name result

/--
A list or dict made of operands within the limit on footprints exceeds the limit by no more than
what its construction leaves out of the count.
-/
theorem roomWithin_of_outcome
    {construction : Construction}
    (within : ∀ operand ∈ construction.operands, operand.RoomWithin maxFootprint)
    {scope : Scope}
    {run : Function → List Value → Except EvalError Value}
    {result : Value}
    (made : construction.outcome scope run = .ok result) :
    result.RoomWithin (maxFootprint + construction.uncounted result) := by
  cases construction with
  | sum left right => exact gives_room_add left right result made
  | product left right =>
      rw [uncounted, ← Nat.add_assoc]
      exact gives_room_multiply left right result made
  | listDisplay items => exact Expression.Expr.gives_room_list items result made
  | dictDisplay entries => exact Expression.Expr.gives_room_dict entries result made
  | call builtin arguments => exact Builtin.gives_room_call within builtin result made
  | method receiver name arguments =>
      rw [operands, List.forall_mem_cons] at within
      exact gives_room_callMethod within.1 within.2 name result made

/-- A list that is repeated three times within the limit. -/
theorem roomWithin_of_outcome_product :
    let construction := product (.list [.int 7]) (.int 3)
    (∀ operand ∈ construction.operands, operand.RoomWithin maxFootprint) ∧
      construction.outcome (fun _ => Option.none) Closure.call =
        .ok (.list [.int 7, .int 7, .int 7]) ∧
      (Value.list [.int 7, .int 7, .int 7]).RoomWithin (maxFootprint + 8) := by
  intro construction
  have within : ∀ operand ∈ construction.operands, operand.RoomWithin maxFootprint := by
    refine List.forall_mem_cons.mpr ⟨roomWithin_of_weight_le ?_, by simp [RoomWithin]⟩
    simp [weight, maxFootprint]
  have made : construction.outcome (fun _ => Option.none) Closure.call =
      .ok (.list [.int 7, .int 7, .int 7]) :=
    repeatList_eq_ok (by decide) (by simp [footprint, weight, saturate, maxCount, maxFootprint])
  exact ⟨within, made, roomWithin_of_outcome within made⟩

/--
Two constructions beyond the limit: a list of one short text that is repeated a hundred thousand
times, and the pairs of a list of seven long texts with itself.
-/
theorem outcome_exceeds_limit :
    let short := Value.ofText (List.replicate 82 'a')
    let long := Value.ofText (List.replicate maxStringSize 'a')
    let repetition := product (.list [short]) (.int 100000)
    let pairs :=
      call .zip [.list (List.replicate 7 long), .list (List.replicate 7 long)]
    (∀ operand ∈ repetition.operands ++ pairs.operands, operand.RoomWithin maxFootprint) ∧
    (∃ result, repetition.outcome (fun _ => Option.none) Closure.call = .ok result ∧
      ¬result.RoomWithin maxFootprint) ∧
    ∃ result, pairs.outcome (fun _ => Option.none) Closure.call = .ok result ∧
      ¬result.RoomWithin maxFootprint := by
  intro short long repetition pairs
  have shortWeight : short.weight = 166 := weight_ofText_replicate 82
  have longWeight : long.weight = 2 * maxStringSize + 2 := weight_ofText_replicate maxStringSize
  have tooMuch {items : List Value} (large : maxFootprint < (Value.list items).weight) :
      ¬(Value.list items).RoomWithin maxFootprint := fun within =>
    absurd within.weight_list_le (Nat.not_le.mpr large)
  have one : (Value.list [short]).RoomWithin maxFootprint := by
    refine roomWithin_of_weight_le ?_
    rw [weight_list, List.map_singleton, List.sum_singleton, shortWeight]
    decide
  have seven : (Value.list (List.replicate 7 long)).RoomWithin maxFootprint := by
    refine roomWithin_of_weight_le ?_
    rw [weight_replicate, longWeight]
    decide
  refine ⟨?_, ⟨_, repeatList_eq_ok (by decide) ?_, tooMuch ?_⟩,
    ⟨_, congrArg Except.ok (Builtin.zipped_replicate 7 long long), tooMuch ?_⟩⟩
  · simp only [repetition, pairs, operands, List.forall_mem_append, List.forall_mem_cons]
    exact ⟨⟨one, trivial, List.forall_mem_nil _⟩, seven, seven, List.forall_mem_nil _⟩
  · have whole : short.footprint = 166 :=
      shortWeight ▸ footprint_of_weight_le (by rw [shortWeight]; decide)
    rw [List.map_singleton, List.sum_singleton, whole]
    decide
  · rw [weight_copies, List.map_singleton, List.sum_singleton, shortWeight]
    decide
  · rw [weight_replicate, weight_list]
    simp only [List.map_cons, List.map_nil, List.sum_cons, List.sum_nil, longWeight]
    decide

end Construction
end TemplatedMarkup
