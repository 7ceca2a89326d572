import TemplatedMarkup.Builtin.Format
import TemplatedMarkup.Builtin.Function
import TemplatedMarkup.Text.Case
import TemplatedMarkup.Text.Search

/-!
# Methods

The methods of strings, lists and dicts.
-/

namespace TemplatedMarkup

/-- The methods of strings. -/
inductive StringMethod where
  | upper
  | lower
  | title
  | capitalize
  | strip
  | lstrip
  | rstrip
  | replace
  | zfill
  | join
  | format
  | split
  | splitlines
  | startswith
  | endswith
  | find
  | count
  | isdigit
  | isalpha
deriving DecidableEq, Repr

/-- The name that a method of strings is called by. -/
def StringMethod.name : StringMethod → String
  | .upper => "upper"
  | .lower => "lower"
  | .title => "title"
  | .capitalize => "capitalize"
  | .strip => "strip"
  | .lstrip => "lstrip"
  | .rstrip => "rstrip"
  | .replace => "replace"
  | .zfill => "zfill"
  | .join => "join"
  | .format => "format"
  | .split => "split"
  | .splitlines => "splitlines"
  | .startswith => "startswith"
  | .endswith => "endswith"
  | .find => "find"
  | .count => "count"
  | .isdigit => "isdigit"
  | .isalpha => "isalpha"

/-- All methods of strings. -/
def StringMethod.every : List StringMethod := [
  .upper, .lower, .title, .capitalize, .strip, .lstrip, .rstrip, .replace, .zfill, .join, .format,
  .split, .splitlines, .startswith, .endswith, .find, .count, .isdigit, .isalpha]

/-- The method of strings with a name. -/
def StringMethod.ofName? (name : String) : Option StringMethod :=
  StringMethod.every.find? fun method => method.name == name

/-- The string that an argument has to be. -/
def stringArgument (function : String) : Value → Except EvalError String
  | .str text => .ok text
  | other => .error (.expectedString function other.kind)

namespace StringMethod

/-- The characters that trimming drops: blanks, or those of an argument. -/
def trimmed (method : StringMethod) (arguments : List Value) : Except EvalError (Char → Bool) :=
  match arguments.head? with
  | none | some .none => .ok Text.isBlank
  | some value => do
      let dropped ← stringArgument method.name value
      return fun character => dropped.toList.contains character

/-- Replace the occurrences of a string, if the result is not too long. -/
def replaced (text pattern replacement : String) : Except EvalError Value := do
  let hits := Text.occurrences pattern.toList text.toList
  checkStringSize <| saturate <|
    text.utf8ByteSize - hits * pattern.utf8ByteSize + hits * replacement.utf8ByteSize
  return .ofText (Text.replace pattern.toList replacement.toList text.toList)

/-- Fill a text up with zeros, behind its sign if it has one. -/
def zeroFilled (text : List Char) (width : Nat) : List Char :=
  let zeros := List.replicate (width - text.length) '0'
  match text with
  | '-' :: digits => '-' :: zeros ++ digits
  | '+' :: digits => '+' :: zeros ++ digits
  | digits => zeros ++ digits

/-- Add an item to the strings to be joined and to the size that they will have. -/
def joinItem
    (separator : String)
    (collected : List String × Nat) : Value → Except EvalError (List String × Nat)
  | .str text => do
      let (parts, size) := collected
      let gap := if parts.isEmpty then 0 else separator.utf8ByteSize
      let size := saturate (saturate (size + text.utf8ByteSize) + gap)
      checkStringSize size
      return (text :: parts, size)
  | other => .error (.itemNotString other.kind)

/-- Join the strings of a sequence. -/
def joined (separator : String) (items : List Value) : Except EvalError Value := do
  let (parts, _) ← items.foldlM (joinItem separator) ([], 0)
  return .str (Text.join separator parts.reverse)

/-- Cut a text at blanks. -/
def splitAtBlanks (text : List Char) : Except EvalError Value := do
  let parts := Text.words text
  checkLength parts.length
  return .list (parts.map .ofText)

/-- Cut a text at every occurrence of a separator. -/
def splitAt (separator text : List Char) : Except EvalError Value :=
  if separator.isEmpty then .error .emptySeparator
  else do
    checkLength (saturate (Text.occurrences separator text + 1))
    return .list ((Text.pieces separator text).map .ofText)

/-- The lines of a text as a list. -/
def linesOf (text : List Char) : Except EvalError Value := do
  let lines := Text.lineLists text
  checkLength lines.length
  return .list (lines.map .ofText)

/-- Whether all characters of a text that is not empty belong to a class. -/
def consistsOf (accepts : Char → Bool) (text : List Char) : Value :=
  .bool (!text.isEmpty && text.all accepts)

/-- Call a method of a string. -/
def call (method : StringMethod) (text : String) (arguments : List Value) :
    Except EvalError Value := do
  let characters := text.toList
  let needed := requiredArgument method.name arguments
  let neededString (position : Nat) : Except EvalError String := do
    stringArgument method.name (← needed position)
  match method with
  | .upper => return .ofText (Text.upper characters)
  | .lower => return .ofText (Text.lower characters)
  | .title => return .ofText (Text.title characters)
  | .capitalize => return .ofText (Text.capitalize characters)
  | .strip => return .ofText (Text.trimWhere (← method.trimmed arguments) characters)
  | .lstrip => return .ofText (characters.dropWhile (← method.trimmed arguments))
  | .rstrip => return .ofText (Text.trimEndWhere (← method.trimmed arguments) characters)
  | .replace => replaced text (← neededString 0) (← neededString 1)
  | .zfill =>
      let width := (((← needed 0).integer?.getD 0).toInt).toNat
      checkStringSize width
      return .ofText (zeroFilled characters width)
  | .join => joined text (← (← needed 0).items)
  | .format => return .str (← formatText text arguments)
  | .split =>
      match arguments.head? with
      | none | some .none => splitAtBlanks characters
      | some value => splitAt (← stringArgument method.name value).toList characters
  | .splitlines => linesOf characters
  | .startswith => return .bool ((← neededString 0).toList.isPrefixOf characters)
  | .endswith => return .bool ((← neededString 0).toList.isSuffixOf characters)
  | .find =>
      let place := Text.find? (← neededString 0).toList characters
      return .int (place.elim (-1) .ofNat)
  | .count => return .ofCount (Text.occurrences (← neededString 0).toList characters)
  | .isdigit => return consistsOf Char.isDigit characters
  | .isalpha => return consistsOf Text.isLetter characters

end StringMethod

/-- Call a method of a list. -/
def callListMethod (items : List Value) (name : String) (arguments : List Value) :
    Except EvalError Value := do
  let needed := requiredArgument name arguments 0
  match name with
  | "index" =>
      let needle ← needed
      match items.findIdx? (·.equal needle) with
      | some place => return .ofCount place
      | none => .error (.notInList needle.literal)
  | "count" =>
      let needle ← needed
      return .ofCount (items.countP (·.equal needle))
  | _ => .error (.noMethod .list name)

/-- Call a method of a dict. -/
def callDictMethod (entries : List (Value × Value)) (name : String) (arguments : List Value) :
    Except EvalError Value := do
  match name with
  | "get" =>
      let key ← requiredArgument name arguments 0
      return (Value.lookup? key entries).getD (arguments[1]?.getD .none)
  | "keys" => return .list (entries.map (·.1))
  | "values" => return .list (entries.map (·.2))
  | "items" => return .list (entries.map fun entry => .list [entry.1, entry.2])
  | _ => .error (.noMethod .dict name)

/-- Call a method of a value. -/
def callMethod (receiver : Value) (name : String) (arguments : List Value) :
    Except EvalError Value :=
  match receiver with
  | .str text =>
      match StringMethod.ofName? name with
      | some method => method.call text arguments
      | none => .error (.noMethod .str name)
  | .list items => callListMethod items name arguments
  | .dict entries => callDictMethod entries name arguments
  | other => .error (.noMethod other.kind name)

end TemplatedMarkup
