import TemplatedMarkup.Document.Declaration

/-!
# Filters of a document

A line of the filters block defines a filter of one or two parameters by an expression.  A filter
is compiled to a function of two parameters, the second of which may be left out, and registered
under its name.
-/

namespace TemplatedMarkup
namespace Document

/-- The functions of filters under their names. -/
abbrev FilterRegistry := Table Function

/-- A filter as it is defined on a line. -/
structure FilterDefinition where
  /-- The name of the filter. -/
  name : String
  /-- The parameter for the filtered value. -/
  value : String
  /-- The parameter for the argument, if there is one. -/
  argument : Option String
  /-- The text of the expression. -/
  body : String
deriving DecidableEq

/--
The body behind the arrow of a definition.  It stands on one line between blanks; when there are
only blanks, it is the last of them that ends no line.
-/
def readFilterBody? (text : List Char) : Option (List Char) :=
  let body := Text.trimWhere Text.isBlank text
  if body.isEmpty then
    (text.reverse.find? (· != '\n')).map fun blank => [blank]
  else if body.contains '\n' then none
  else some body

/-- A comma and a second parameter, if there are any, and what follows. -/
def readSecondParameter (text : List Char) : Option (List Char) × List Char :=
  match skipMark? [','] text with
  | none => (none, text)
  | some rest =>
      let (parameter, rest) := spanWord rest
      if parameter.isEmpty then (none, text) else (some parameter, rest)

/-- Read a line that defines a filter. -/
def readFilter? (line : String) : Option FilterDefinition := do
  let (name, rest) := spanWord (skipBlanks line.toList)
  let rest ← skipMark? ['('] rest
  let (value, rest) := spanWord rest
  if name.isEmpty || value.isEmpty then
    none
  else
    let (argument, rest) := readSecondParameter rest
    let rest ← skipMark? [')'] rest
    let rest := skipBlanks rest
    if "<=".toList.isPrefixOf rest then
      let body ← readFilterBody? (rest.drop 2)
      return ⟨.ofList name, .ofList value, argument.map .ofList, .ofList body⟩
    else
      none

namespace FilterDefinition

/-- The name that stands for an argument that is not declared; no expression can write it. -/
def undeclaredArgument : String := "___"

/-- The names of the parameters in the compiled function. -/
def image (definition : FilterDefinition) (name : String) : String :=
  if name = definition.argument.getD undeclaredArgument then "b"
  else if name = definition.value then "a"
  else name

/-- The body of the compiled function. -/
def compiledBody (definition : FilterDefinition) :
    Except Expression.SourceError Expression.Expr := do
  return (← Expression.parse definition.body).rename definition.image

/-- The program that defines the function of a filter. -/
def program (definition : FilterDefinition) : Except DocumentError String :=
  match definition.compiledBody with
  | .error cause => .error (.malformed s!"filter '{definition.name}': {cause.message}")
  | .ok body => .ok s!"def {definition.name}(a, b=None): return {body.print}"

/-- Names of filters that start with an underscore are forbidden. -/
def isForbidden (definition : FilterDefinition) : Bool :=
  definition.name.toList.head? == some '_'

/-- The function of a filter. -/
def compile (definition : FilterDefinition) : Except DocumentError Function := do
  if definition.isForbidden then
    .error (.forbiddenName definition.name)
  else
    let program ← definition.program
    match ← (Program.fetch 0 program definition.name).mapError DocumentError.ofProgram with
    | .function closure => return closure
    | other =>
        .error (.evaluation
          s!"filter '{definition.name}' compiled to {other.kind.name}, not a function")

end FilterDefinition

/-- The error of a line that defines no filter. -/
def unreadableFilter (number : Nat) : DocumentError :=
  .malformed s!"filters line {number}: expected 'name(param[, param]) <= expression'"

/--
Compile the filters on lines, the first of which has the given number, and register them.  Blank
lines are skipped; any other line that defines no filter is an error in strict mode and skipped
otherwise.  An error leaves the filters before it registered.
-/
def registerFilters (strict : Bool) (number : Nat) (registry : FilterRegistry) :
    List String → FilterRegistry × Except DocumentError (List String)
  | [] => (registry, .ok [])
  | line :: lines =>
      if line.toList.all Text.isBlank then registerFilters strict (number + 1) registry lines
      else
        match readFilter? line with
        | none =>
            if strict then (registry, .error (unreadableFilter number))
            else registerFilters strict (number + 1) registry lines
        | some definition =>
            match definition.compile with
            | .error cause => (registry, .error cause)
            | .ok closure =>
                let (registry, names) :=
                  registerFilters strict (number + 1) (registry.set definition.name closure) lines
                (registry, names.map (definition.name :: ·))

/-- Compile and register the filters of lines; the names are those registered, in order. -/
def compileFilters (lines : List String) (registry : FilterRegistry) (strict : Bool) :
    FilterRegistry × Except DocumentError (List String) :=
  registerFilters strict 1 registry lines

end Document
end TemplatedMarkup
