import TemplatedMarkup.Value.Arithmetic
import TemplatedMarkup.Value.Order

/-!
# Indices, slices and items

Lists and strings are indexed and sliced by position, negative positions counting from the end;
dicts are indexed by key.
-/

namespace TemplatedMarkup
namespace Value

/-- The place of an index in a sequence; `sequence` names the sequence in errors. -/
def position (length : Nat) (index : Value) (sequence : String) : Except EvalError Nat :=
  match index.integer? with
  | Option.none => .error (.indexNotInteger sequence index.kind)
  | some index =>
      let place := if index.toInt < 0 then index.toInt + length else index.toInt
      if place < 0 ∨ (length : Int) ≤ place then .error (.indexOutOfRange sequence)
      else .ok place.toNat

/-- The item of a list, the character of a string or the value of a dict at an index. -/
def item (collection index : Value) : Except EvalError Value :=
  match collection with
  | .list items => do
      let place ← position items.length index "list"
      return items[place]?.getD .none
  | .str text => do
      let place ← position text.length index "string"
      return .ofText text.toList[place]?.toList
  | .dict entries =>
      match lookup? index entries with
      | some value => .ok value
      | Option.none => .error (.missingKey index.literal)
  | other => .error (.notSubscriptable other.kind)

/-- A bound of a slice: counted from the end when negative, then moved into a range. -/
def sliceBound (length low high bound : Int64) : Int64 :=
  let bound := if bound < 0 then bound + length else bound
  if bound < low then low else if high < bound then high else bound

/--
Where a slice starts and where it stops.  A missing bound is the end of the sequence that the step
comes from or leads to.
-/
def sliceEnds (length : Int64) (start stop : Option Int64) (step : Int64) : Int64 × Int64 :=
  if 0 < step then
    let bound := sliceBound length 0 length
    ((start.map bound).getD 0, (stop.map bound).getD length)
  else
    let bound := sliceBound length (-1) (length - 1)
    ((start.map bound).getD (length - 1), (stop.map bound).getD (-1))

/-- Whether a place comes before the stop in the direction of the step. -/
def isShortOf (step place stop : Int64) : Bool :=
  if 0 < step then place < stop else stop < place

/-- A sum that 64 bits hold leads on in the direction of the step. -/
theorem distance_lt_of_sum
    {stop step place next : Int64}
    (nonzero : step ≠ 0)
    (short : isShortOf step place stop = true)
    (isSum : sumWithin? place step = some next) :
    (if 0 < step then stop.toInt - next.toInt else next.toInt - stop.toInt).toNat <
      (if 0 < step then stop.toInt - place.toInt else place.toInt - stop.toInt).toNat := by
  have notZero : step.toInt ≠ 0 := fun isZero => nonzero (Int64.toInt_inj.mp isZero)
  have sum := toInt_of_sumWithin? isSum
  unfold isShortOf at short
  split
  · rename_i upwards
    rw [if_pos upwards, decide_eq_true_iff, Int64.lt_iff_toInt_lt] at short
    rw [Int64.lt_iff_toInt_lt, Int64.toInt_zero] at upwards
    omega
  · rename_i downwards
    rw [if_neg downwards, decide_eq_true_iff, Int64.lt_iff_toInt_lt] at short
    rw [Int64.lt_iff_toInt_lt, Int64.toInt_zero] at downwards
    omega

/--
The places from one on, a step apart, before the stop.  They also end where the next one would need
more than 64 bits.
-/
def placesFrom (stop step : Int64) (nonzero : step ≠ 0) (place : Int64) : List Nat :=
  if _short : isShortOf step place stop then
    match _isSum : sumWithin? place step with
    | some next => place.toUInt64.toNat :: placesFrom stop step nonzero next
    | Option.none => [place.toUInt64.toNat]
  else []
termination_by
  (if 0 < step then stop.toInt - place.toInt else place.toInt - stop.toInt).toNat
decreasing_by
  exact distance_lt_of_sum nonzero _short _isSum

/-- The places that a slice selects in a sequence. -/
def slicePlaces
    (length : Nat)
    (start stop : Option Int64)
    (step : Int64)
    (nonzero : step ≠ 0) : List Nat :=
  let ends := sliceEnds (.ofNat length) start stop step
  placesFrom ends.2 step nonzero ends.1

/-- The items at some places of a list. -/
def itemsAt {Item : Type} (items : List Item) (places : List Nat) : List Item :=
  let table := items.toArray
  places.filterMap (table[·]?)

/-- The items of a list or the characters of a string that a slice selects. -/
def slice (collection : Value) (start stop step : Option Int64) : Except EvalError Value :=
  let step := step.getD 1
  if isZero : step = 0 then .error .sliceStepZero
  else
    match collection with
    | .list items => .ok (.list (itemsAt items (slicePlaces items.length start stop step isZero)))
    | .str text =>
        let characters := text.toList
        .ok (.ofText (itemsAt characters (slicePlaces characters.length start stop step isZero)))
    | other => .error (.notSubscriptable other.kind)

/-- The items of a list, the characters of a string or the keys of a dict. -/
def items (value : Value) : Except EvalError (List Value) :=
  match value with
  | .list items => .ok items
  | .str text => do
      checkLength text.length
      return text.toList.map fun character => .ofText [character]
  | .dict entries => .ok (entries.map (·.1))
  | other => .error (.notIterable other.kind)

/-- Put a value at a key that is already among the entries, or behind them. -/
def setEntry (key value : Value) : List (Value × Value) → List (Value × Value)
  | [] => [(key, value)]
  | (otherKey, otherValue) :: entries =>
      if otherKey.equal key then (otherKey, value) :: entries
      else (otherKey, otherValue) :: setEntry key value entries

/-- Put a value at a key of a dict; the key keeps the place that it has. -/
def insert (key value : Value) (entries : List (Value × Value)) :
    Except EvalError (List (Value × Value)) :=
  if key.isHashable then .ok (setEntry key value entries)
  else .error (.unhashable key.kind)

end Value
end TemplatedMarkup
