import TemplatedMarkup.Value.Equality
import TemplatedMarkup.Value.Error
import TemplatedMarkup.Text.Search

/-!
# Order and membership

Numbers, strings and lists are ordered; a list is placed by its first item that differs.  Strings,
lists and dicts contain values.
-/

namespace TemplatedMarkup

/-- The order of two doubles; a NaN counts as equal to every double. -/
def compareFloats (left right : Float) : Ordering :=
  if left < right then .lt else if right < left then .gt else .eq

/-- The order of two numbers: exact for integers, otherwise that of doubles. -/
def Number.compare : Number → Number → Ordering
  | .int left, .int right => Ord.compare left.toInt right.toInt
  | left, right => compareFloats left.toFloat right.toFloat

namespace Value

mutual

/-- The order of two values, if they have one. -/
def compare (left right : Value) : Except EvalError Ordering :=
  match left.number?, right.number? with
  | some left, some right => .ok (left.compare right)
  | _, _ =>
      match left, right with
      | .str left, .str right => .ok (Ord.compare left right)
      | .list left, .list right => compareItems left right
      | left, right => .error (.notOrdered left.kind right.kind)

/-- The order of two lists: that of their first items that differ, else of their lengths. -/
def compareItems : List Value → List Value → Except EvalError Ordering
  | [], [] => .ok .eq
  | [], _ :: _ => .ok .lt
  | _ :: _, [] => .ok .gt
  | left :: lefts, right :: rights =>
      if left.equal right then compareItems lefts rights else left.compare right

end

/-- Whether a container has a value among its items, keys or substrings. -/
def contains (container item : Value) : Except EvalError Bool :=
  match container, item with
  | .str text, .str part => .ok (Text.occursIn part.toList text.toList)
  | .str _, item => .error (.notASubstring item.kind)
  | .list items, item => .ok (items.any (·.equal item))
  | .dict entries, item => .ok (lookup? item entries).isSome
  | container, _ => .error (.notAContainer container.kind)

end Value
end TemplatedMarkup
