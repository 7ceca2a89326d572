import TemplatedMarkup.Value.Basic

/-!
# Errors of evaluation

Why an expression has no value.
-/

namespace TemplatedMarkup

/-- Why an evaluation fails. -/
inductive EvalError where
  /-- An integer result that does not fit in 64 bits. -/
  | integerOverflow
  /-- A quotient by zero. -/
  | divisionByZero
  /-- An integer quotient or remainder by zero. -/
  | integerDivisionByZero
  /-- A floor quotient of doubles by zero. -/
  | floatFloorByZero
  /-- A remainder of doubles by zero. -/
  | floatModuloByZero
  /-- Zero raised to a negative power. -/
  | zeroToNegativePower
  /-- Operands that an operator does not take. -/
  | unsupportedOperands (operator : String) (left right : Kind)
  /-- An operand that a sign does not take. -/
  | unsupportedSign (operator : String) (operand : Kind)
  /-- Values that have no order. -/
  | notOrdered (left right : Kind)
  /-- A sort that gives up because its comparison is no order. -/
  | disorder
  /-- A value that is not a string, looked for in a string. -/
  | notASubstring (kind : Kind)
  /-- A value that contains nothing. -/
  | notAContainer (kind : Kind)
  /-- A key that a dict does not have, as a literal. -/
  | missingKey (key : String)
  /-- A value without items. -/
  | notSubscriptable (kind : Kind)
  /-- A slice with step zero. -/
  | sliceStepZero
  /-- A bound of a slice that is no integer. -/
  | sliceBoundNotInteger
  /-- An index that is no integer. -/
  | indexNotInteger (sequence : String) (kind : Kind)
  /-- An index outside a sequence. -/
  | indexOutOfRange (sequence : String)
  /-- A sequence longer than the limit. -/
  | sequenceTooLong (length limit : Nat)
  /-- A string longer than the limit. -/
  | stringTooLong (size limit : Nat)
  /-- A collection whose footprint exceeds the limit. -/
  | valueTooLarge (footprint limit : Nat)
  /-- A key that no dict can have. -/
  | unhashable (kind : Kind)
  /-- A name that nothing is bound to. -/
  | undefinedName (name : String)
  /-- A call of a value that is no function. -/
  | notCallable (name : String)
  /-- A call of a name that is neither bound nor built in. -/
  | notAFunction (name : String)
  /-- More open calls than the limit. -/
  | callsTooDeep
  /-- More arguments than parameters. -/
  | tooManyArguments (function : String) (parameters arguments : Nat)
  /-- No argument for a parameter without default. -/
  | missingArgument (function parameter : String)
  /-- A built-in function or method without an argument it needs. -/
  | argumentMissing (function : String) (position : Nat)
  /-- A method that a kind of value does not have. -/
  | noMethod (kind : Kind) (name : String)
  /-- An argument that should be a string. -/
  | expectedString (function : String) (kind : Kind)
  /-- A value without items to go through. -/
  | notIterable (kind : Kind)
  /-- A string that spells no integer, as a literal. -/
  | notAnInteger (text : String)
  /-- A string that spells no number, as a literal. -/
  | notAFloat (text : String)
  /-- An infinity or NaN where an integer is needed. -/
  | noIntegerValue
  /-- A value that has no integer. -/
  | notConvertibleToInteger (kind : Kind)
  /-- A value that has no double. -/
  | notConvertibleToFloat (kind : Kind)
  /-- An item that is no pair of a key and a value. -/
  | notAPair
  /-- A value without length. -/
  | noLength (kind : Kind)
  /-- A bound of a range that is no integer. -/
  | rangeBoundNotInteger (kind : Kind)
  /-- A range with no arguments or more than three. -/
  | rangeArguments (count : Nat)
  /-- A range with step zero. -/
  | rangeStepZero
  /-- A value without absolute value. -/
  | noAbsolute (kind : Kind)
  /-- The least or greatest of no items. -/
  | emptyChoice (function : String)
  /-- A value that cannot be rounded. -/
  | noRounding (kind : Kind)
  /-- An item that a list does not have, as a literal. -/
  | notInList (item : String)
  /-- A split at the empty string. -/
  | emptySeparator
  /-- An item that is no string, joined with strings. -/
  | itemNotString (kind : Kind)
  /-- An opening brace without its closing one in a format. -/
  | openBrace
  /-- A closing brace without its opening one in a format. -/
  | closeBrace
  /-- A field of a format that is no number. -/
  | unsupportedField (field : String)
  /-- A field of a format without its argument. -/
  | fieldOutOfRange (position : Nat)
deriving DecidableEq

/-- Whether an error is no answer but the end of the whole program. -/
def EvalError.isCrash : EvalError → Bool
  | .disorder => true
  | _ => false

/-- The text of an error. -/
def EvalError.message : EvalError → String
  | .integerOverflow => "integer overflow"
  | .divisionByZero => "division by zero"
  | .integerDivisionByZero => "integer division or modulo by zero"
  | .floatFloorByZero => "float floor division by zero"
  | .floatModuloByZero => "float modulo"
  | .zeroToNegativePower => "0.0 cannot be raised to a negative power"
  | .unsupportedOperands operator left right =>
      s!"unsupported operand type(s) for {operator}: '{left.name}' and '{right.name}'"
  | .unsupportedSign operator operand =>
      s!"bad operand type for unary {operator}: '{operand.name}'"
  | .notOrdered left right =>
      s!"'<' not supported between instances of '{left.name}' and '{right.name}'"
  | .disorder => "user-provided comparison function does not correctly implement a total order"
  | .notASubstring kind =>
      s!"'in <string>' requires string as left operand, not {kind.name}"
  | .notAContainer kind => s!"argument of type '{kind.name}' is not iterable"
  | .missingKey key => s!"KeyError: {key}"
  | .notSubscriptable kind => s!"'{kind.name}' object is not subscriptable"
  | .sliceStepZero => "slice step cannot be zero"
  | .sliceBoundNotInteger => "slice indices must be integers or None"
  | .indexNotInteger sequence kind =>
      s!"{sequence} indices must be integers, not {kind.name}"
  | .indexOutOfRange sequence => s!"{sequence} index out of range"
  | .sequenceTooLong length limit => s!"sequence too long ({length} items, limit {limit})"
  | .stringTooLong size limit => s!"string too long ({size} bytes, limit {limit})"
  | .valueTooLarge footprint limit =>
      s!"value too large (~{footprint} bytes, limit {limit})"
  | .unhashable kind => s!"unhashable type: '{kind.name}'"
  | .undefinedName name => s!"name '{name}' is not defined"
  | .notCallable name => s!"'{name}' is not callable"
  | .notAFunction name => s!"name '{name}' is not an allowed function"
  | .callsTooDeep => "maximum call depth exceeded"
  | .tooManyArguments function parameters arguments =>
      s!"{function}() takes {parameters} arguments but {arguments} were given"
  | .missingArgument function parameter =>
      s!"{function}() missing required argument: '{parameter}'"
  | .argumentMissing function position => s!"{function}: argument {position} missing"
  | .noMethod kind name => s!"'{kind.name}' object has no allowed method '{name}'"
  | .expectedString function kind => s!"{function}: expected str, got {kind.name}"
  | .notIterable kind => s!"'{kind.name}' object is not iterable"
  | .notAnInteger text => s!"invalid literal for int(): {text}"
  | .notAFloat text => s!"could not convert string to float: {text}"
  | .noIntegerValue => "cannot convert float infinity or NaN to integer"
  | .notConvertibleToInteger kind =>
      s!"int() argument must be a string or a number, not '{kind.name}'"
  | .notConvertibleToFloat kind =>
      s!"float() argument must be a string or a number, not '{kind.name}'"
  | .notAPair => "dict() needs a sequence of [key, value] pairs"
  | .noLength kind => s!"object of type '{kind.name}' has no len()"
  | .rangeBoundNotInteger kind =>
      s!"'{kind.name}' object cannot be interpreted as an integer"
  | .rangeArguments count => s!"range expected 1 to 3 arguments, got {count}"
  | .rangeStepZero => "range() arg 3 must not be zero"
  | .noAbsolute kind => s!"bad operand type for abs(): '{kind.name}'"
  | .emptyChoice function => s!"{function}() arg is an empty sequence"
  | .noRounding kind => s!"type {kind.name} doesn't define __round__"
  | .notInList item => s!"{item} is not in list"
  | .emptySeparator => "empty separator"
  | .itemNotString kind => s!"sequence item: expected str instance, {kind.name} found"
  | .openBrace => "single '\x7b' encountered in format string"
  | .closeBrace => "single '\x7d' encountered in format string"
  | .unsupportedField field => s!"unsupported format field '\x7b{field}\x7d'"
  | .fieldOutOfRange position => s!"format index {position} out of range"

end TemplatedMarkup
