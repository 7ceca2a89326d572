import TemplatedMarkup.Builtin.Sort
import TemplatedMarkup.Text.Trim
import TemplatedMarkup.Value.Arithmetic
import TemplatedMarkup.Value.Sequence

/-!
# Built-in functions

The functions that every expression may call by name.
-/

namespace TemplatedMarkup

/-- The built-in functions. -/
inductive Builtin where
  | str
  | repr
  | bool
  | int
  | float
  | list
  | dict
  | len
  | range
  | sorted
  | reversed
  | enumerate
  | zip
  | any
  | all
  | abs
  | min
  | max
  | sum
  | round
deriving DecidableEq, Repr

/-- The name that a built-in function is called by. -/
def Builtin.name : Builtin → String
  | .str => "str"
  | .repr => "repr"
  | .bool => "bool"
  | .int => "int"
  | .float => "float"
  | .list => "list"
  | .dict => "dict"
  | .len => "len"
  | .range => "range"
  | .sorted => "sorted"
  | .reversed => "reversed"
  | .enumerate => "enumerate"
  | .zip => "zip"
  | .any => "any"
  | .all => "all"
  | .abs => "abs"
  | .min => "min"
  | .max => "max"
  | .sum => "sum"
  | .round => "round"

/-- All built-in functions. -/
def Builtin.every : List Builtin := [
  .str, .repr, .bool, .int, .float, .list, .dict, .len, .range, .sorted, .reversed, .enumerate,
  .zip, .any, .all, .abs, .min, .max, .sum, .round]

/-- The built-in function with a name. -/
def Builtin.ofName? (name : String) : Option Builtin :=
  Builtin.every.find? fun builtin => builtin.name == name

/-- The argument at a position, which a function needs. -/
def requiredArgument
    (function : String)
    (arguments : List Value)
    (position : Nat) : Except EvalError Value :=
  match arguments[position]? with
  | some value => .ok value
  | none => .error (.argumentMissing function position)

namespace Builtin

/-- The text of a value, if it is not too long. -/
def textOf (render : Value → String) (value : Value) : Except EvalError Value := do
  checkFootprint value.footprint
  checkStringSize (render value).utf8ByteSize
  return .str (render value)

/-- The integer that a string spells, blanks around it and underscores left out. -/
def integerOfText (text : String) : Except EvalError Value :=
  match Decimal.readInt64? ((Text.trimWhere Text.isBlank text.toList).filter (· != '_')) with
  | some value => .ok (.int value)
  | none => .error (.notAnInteger (Value.str text).literal)

/-- The integer of a value, a fraction cut off. -/
def integerOf : Value → Except EvalError Value
  | .str text => integerOfText text
  | .float value =>
      if Decimal.isFinite value then .ok (.int value.toInt64) else .error .noIntegerValue
  | other =>
      match other.integer? with
      | some value => .ok (.int value)
      | none => .error (.notConvertibleToInteger other.kind)

/-- The double of a value. -/
def floatOf : Value → Except EvalError Value
  | .str text =>
      match Decimal.readFloat? (Text.trimWhere Text.isBlank text.toList) with
      | some value => .ok (.float value)
      | none => .error (.notAFloat (Value.str text).literal)
  | .float value => .ok (.float value)
  | other =>
      match other.integer? with
      | some value => .ok (.float value.toFloat)
      | none => .error (.notConvertibleToFloat other.kind)

/-- Put the pair that a value is among the entries of a dict. -/
def insertPair (entries : List (Value × Value)) :
    Value → Except EvalError (List (Value × Value))
  | .list [key, value] => Value.insert key value entries
  | _ => .error .notAPair

/-- The dict of a dict or of a sequence of pairs. -/
def dictOf : Value → Except EvalError Value
  | .dict entries => .ok (.dict entries)
  | other => do return .dict (← (← other.items).foldlM insertPair [])

/-- How many characters, items or entries a value has. -/
def lengthOf : Value → Except EvalError Value
  | .str text => .ok (.ofCount text.length)
  | .list items => .ok (.ofCount items.length)
  | .dict entries => .ok (.ofCount entries.length)
  | other => .error (.noLength other.kind)

/-- The integer of a bound of a range. -/
def rangeBound (value : Value) : Except EvalError Int :=
  match value.integer? with
  | some bound => .ok bound.toInt
  | none => .error (.rangeBoundNotInteger value.kind)

/-- How many steps lead from a start to before a stop. -/
def rangeCount (start stop step : Int) : Nat :=
  let span := if 0 < step then stop - start else start - stop
  if span ≤ 0 then 0 else ((span - 1) / step.natAbs + 1).toNat

/-- The integers from a start on, a step apart, before a stop. -/
def rangeOf (start stop step : Int) : Except EvalError Value :=
  if step = 0 then .error .rangeStepZero
  else do
    checkLength (saturate (rangeCount start stop step))
    return .list ((List.range (rangeCount start stop step)).map fun (number : Nat) =>
      .int (.ofInt (start + number * step)))

/-- A range with one, two or three bounds. -/
def rangeOfBounds : List Int → Except EvalError Value
  | [stop] => rangeOf 0 stop 1
  | [start, stop] => rangeOf start stop 1
  | [start, stop, step] => rangeOf start stop step
  | bounds => .error (.rangeArguments bounds.length)

/-- Each item behind its position, positions counted from a start. -/
def numbered (start : Int64) (items : List Value) : Value :=
  .list (items.mapIdx fun position item => .list [.int (start + .ofNat position), item])

/-- The lists of the items at equal positions, up to the end of the shortest sequence. -/
def zipped (sequences : List (List Value)) : Value :=
  let tables := sequences.map List.toArray
  let shortest := (sequences.map List.length).min?.getD 0
  .list ((List.range shortest).map fun position =>
    .list (tables.filterMap (·[position]?)))

/-- The absolute value of a number. -/
def absoluteOf : Value → Except EvalError Value
  | .float value => .ok (.float value.abs)
  | other =>
      match other.integer? with
      | some value => Value.ofExact value.toInt.natAbs
      | none => .error (.noAbsolute other.kind)

/-- The first value that no other one beats; a value beats the best so far by the wanted order. -/
def choose (function : String) (wanted : Ordering) : List Value → Except EvalError Value
  | [] => .error (.emptyChoice function)
  | first :: others =>
      others.foldlM (fun best value => do
        return if (← value.compare best) = wanted then value else best) first

/-- The least or greatest of the arguments, or of the items of a single argument. -/
def chooseFrom
    (function : String)
    (wanted : Ordering)
    (arguments : List Value) : Except EvalError Value := do
  match arguments with
  | [sequence] => choose function wanted (← sequence.items)
  | _ => choose function wanted arguments

/-- The number of decimal places that rounding takes; more would leave the doubles. -/
def maxPlaces : Int := 308

/-- A double rounded to a number of decimal places, a tie going to the even neighbour. -/
def roundPlaces (value : Float) (places : Int) : Float :=
  let scale := Decimal.powerOfTen (Max.max (-maxPlaces) (Min.min places maxPlaces))
  Decimal.roundHalfEven (value * scale) / scale

/-- A double rounded to an integer, a tie going to the even one. -/
def roundWhole (value : Float) : Except EvalError Value :=
  if Decimal.isFinite value then .ok (.int (Decimal.roundHalfEven value).toInt64)
  else .error .noIntegerValue

/-- A number rounded to the places of a second argument, or to an integer. -/
def roundOf (value : Value) (places : Option Value) : Except EvalError Value :=
  let round (number : Float) : Except EvalError Value :=
    match places.bind Value.integer? with
    | none => roundWhole number
    | some places => .ok (.float (roundPlaces number places.toInt))
  match value with
  | .float number => round number
  | other =>
      match other.integer?, places with
      | none, _ => .error (.noRounding other.kind)
      | some number, none => .ok (.int number)
      | some number, some _ => round number.toFloat

/-- Call a built-in function. -/
def call (builtin : Builtin) (arguments : List Value) : Except EvalError Value := do
  let needed := requiredArgument builtin.name arguments
  match builtin with
  | .str => textOf Value.display (arguments.head?.getD (.str ""))
  | .repr => textOf Value.literal (← needed 0)
  | .bool => return .bool (arguments.head?.any Value.truthy)
  | .int =>
      match arguments.head? with
      | none => return .int 0
      | some value => integerOf value
  | .float =>
      match arguments.head? with
      | none => return .float 0.0
      | some value => floatOf value
  | .list =>
      match arguments.head? with
      | none => return .list []
      | some value => return .list (← value.items)
  | .dict =>
      match arguments.head? with
      | none => return .dict []
      | some value => dictOf value
  | .len => lengthOf (← needed 0)
  | .range => rangeOfBounds (← arguments.mapM rangeBound)
  | .sorted =>
      let sorted ← Value.sort (← (← needed 0).items)
      return .list (if arguments[1]?.any Value.truthy then sorted.reverse else sorted)
  | .reversed => return .list (← (← needed 0).items).reverse
  | .enumerate =>
      let start := (arguments[1]?.bind Value.integer?).getD 0
      return numbered start (← (← needed 0).items)
  | .zip => return zipped (← arguments.mapM Value.items)
  | .any => return .bool ((← (← needed 0).items).any Value.truthy)
  | .all => return .bool ((← (← needed 0).items).all Value.truthy)
  | .abs => absoluteOf (← needed 0)
  | .min => chooseFrom builtin.name .lt arguments
  | .max => chooseFrom builtin.name .gt arguments
  | .sum => (← (← needed 0).items).foldlM Value.add (arguments[1]?.getD (.int 0))
  | .round => roundOf (← needed 0) arguments[1]?

end Builtin
end TemplatedMarkup
