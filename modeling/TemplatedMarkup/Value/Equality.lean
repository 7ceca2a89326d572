import TemplatedMarkup.Value.Basic

/-!
# Equality of values

Numbers are compared across their kinds, lists item by item, and dicts by their keys, whatever
their order.  A function equals only what comes from the same definition.
-/

namespace TemplatedMarkup

/-- Two integers are compared exactly, other numbers as doubles. -/
def Number.equal : Number → Number → Bool
  | .int left, .int right => left == right
  | left, right => left.toFloat == right.toFloat

namespace Value

mutual

/-- Whether two values are equal. -/
def equal (left right : Value) : Bool :=
  match left.number?, right.number? with
  | some left, some right => left.equal right
  | _, _ =>
      match left, right with
      | .none, .none => true
      | .str left, .str right => left == right
      | .list left, .list right => equalItems left right
      | .dict left, .dict right => left.length == right.length && hasEntries right left
      | .function left, .function right => left.origin == right.origin
      | _, _ => false
termination_by sizeOf left + sizeOf right

/-- Whether two lists have equal items at equal positions. -/
def equalItems : List Value → List Value → Bool
  | [], [] => true
  | left :: lefts, right :: rights => left.equal right && equalItems lefts rights
  | _, _ => false
termination_by lefts rights => sizeOf lefts + sizeOf rights

/-- Whether a dict has every entry of a list. -/
def hasEntries (entries : List (Value × Value)) : List (Value × Value) → Bool
  | [] => true
  | (key, value) :: others => hasEntry key value entries && hasEntries entries others
termination_by others => sizeOf entries + sizeOf others

/-- Whether a value equals the one that a dict has first at a key. -/
def hasEntry (key value : Value) : List (Value × Value) → Bool
  | [] => false
  | (otherKey, otherValue) :: entries =>
      if otherKey.equal key then value.equal otherValue else hasEntry key value entries
termination_by entries => sizeOf key + sizeOf value + sizeOf entries

end

/-- The value that a list of entries has first at a key. -/
def lookup? (key : Value) : List (Value × Value) → Option Value
  | [] => Option.none
  | (otherKey, value) :: entries =>
      if otherKey.equal key then some value else lookup? key entries

end Value
end TemplatedMarkup
