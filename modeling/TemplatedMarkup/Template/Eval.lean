import TemplatedMarkup.Document.Filter
import TemplatedMarkup.Template.Filter
import TemplatedMarkup.Template.Node

/-!
# Values of filter chains

A path starts at a name and goes through attributes; where it breaks off, its value is the empty
string.  A filter of the registry hides the built-in filter of its name.
-/

namespace TemplatedMarkup
namespace Template

/-- The methods that a path may call. -/
def attributeMethods : List String := [
  "upper", "lower", "title", "capitalize", "strip", "splitlines", "keys", "values", "items"]

/-- The entry of a dict under a string. -/
def entryNamed? (value : Value) (name : String) : Option Value :=
  match value with
  | .dict entries => Value.lookup? (.str name) entries
  | _ => none

/-- The item at an index that is spelled out. -/
def itemNamed? (value : Value) (name : String) : Option Value := do
  let index ← Decimal.readInt64? name.toList
  (value.item (.int index)).toOption

/-- What a method without arguments gives. -/
def methodNamed? (value : Value) (name : String) : Option Value :=
  if attributeMethods.contains name then (callMethod value name []).toOption else none

/-- An attribute of a value: an entry, else an item, else what a method gives. -/
def attribute? (value : Value) (name : String) : Option Value :=
  ((entryNamed? value name).or (itemNamed? value name)).or (methodNamed? value name)

/-- The value of a path, unless it breaks off. -/
def valueAt? (scope : Scope) (name : String) (attributes : List String) : Option Value := do
  attributes.foldlM attribute? (← scope name)

/-- The value of an operand; the text of a constant is safe, that of a path is not. -/
def Operand.eval (scope : Scope) : Operand → Marked
  | .literal value => ⟨.ofLiteral value, true⟩
  | .path name attributes => ⟨(valueAt? scope name attributes).getD (.str ""), false⟩

/-- The error of a filter that fails. -/
def filterFailure (name message : String) : TemplateError :=
  .evaluation s!"filter '{name}': {message}"

/-- Apply the filter with a name; what a filter of the registry gives is not safe. -/
def applyFilter
    (registry : Document.FilterRegistry)
    (name : String)
    (marked : Marked)
    (argument : Option Value) : Except TemplateError Marked :=
  match registry.get? name with
  | some closure =>
      match closure.call [marked.value, argument.getD .none] with
      | .ok value => .ok ⟨value, false⟩
      | .error cause => .error (filterFailure name cause.message)
  | none =>
      match BuiltinFilter.ofName? name with
      | some filter => (filter.apply marked argument).mapError (filterFailure name ·.message)
      | none => .error (.unknownFilter name)

/-- Apply a filter of a chain, whose argument is evaluated first. -/
def applyStep
    (registry : Document.FilterRegistry)
    (scope : Scope)
    (marked : Marked)
    (filter : String × Option Operand) : Except TemplateError Marked :=
  applyFilter registry filter.1 marked (filter.2.map fun argument => (argument.eval scope).value)

/-- The value of a filter chain. -/
def FilterChain.eval
    (registry : Document.FilterRegistry)
    (scope : Scope)
    (chain : FilterChain) : Except TemplateError Marked :=
  chain.filters.foldlM (applyStep registry scope) (chain.base.eval scope)

/-- Whether there is a filter with a name. -/
def isKnownFilter (registry : Document.FilterRegistry) (name : String) : Bool :=
  (BuiltinFilter.ofName? name).isSome || registry.contains name

/-- The least of some names. -/
def leastName? : List String → Option String
  | [] => none
  | name :: names =>
      match leastName? names with
      | none => some name
      | some other => some (if other < name then other else name)

/-- Refuse a template that names a filter that does not exist; the least such name is reported. -/
def checkFilters (registry : Document.FilterRegistry) (template : Template) :
    Except TemplateError Unit :=
  let unknown := template.filterNames.filter (!isKnownFilter registry ·)
  match leastName? unknown with
  | none => .ok ()
  | some name => .error (.malformed (TemplateError.invalidFilter name))

end Template
end TemplatedMarkup
