import TemplatedMarkup.Decimal.Notation
import TemplatedMarkup.Template.Error
import TemplatedMarkup.Template.Node
import TemplatedMarkup.Text.Trim

/-!
# Reading operands and filter chains

A filter chain is an operand and filters behind bars, each with an optional argument behind a
colon.  Bars and colons inside quotes do not count.
-/

namespace TemplatedMarkup
namespace Template

/-- The state of a text that is being cut: an open quote, and the piece so far in reverse. -/
structure CutState where
  /-- The quote that is open, if there is one. -/
  quote : Option Char
  /-- The characters since the last separator, in reverse. -/
  piece : List Char

/-- Cut the rest of a text at a separator outside quotes. -/
def cutUnquotedFrom (separator : Char) (state : CutState) : List Char → List (List Char)
  | [] => [state.piece.reverse]
  | character :: rest =>
      let kept : List Char := character :: state.piece
      match state.quote with
      | some mark =>
          let quote := if character = mark then none else some mark
          cutUnquotedFrom separator ⟨quote, kept⟩ rest
      | none =>
          if character = '\'' ∨ character = '"' then
            cutUnquotedFrom separator ⟨some character, kept⟩ rest
          else if character = separator then
            state.piece.reverse :: cutUnquotedFrom separator ⟨none, []⟩ rest
          else cutUnquotedFrom separator ⟨none, kept⟩ rest

/-- The pieces of a text between separators outside quotes. -/
def cutUnquoted (separator : Char) (text : List Char) : List (List Char) :=
  cutUnquotedFrom separator ⟨none, []⟩ text

/-- The content of a text between two equal quotes. -/
def unquoted? (text : List Char) : Option (List Char) :=
  match text with
  | mark :: rest =>
      if (mark = '\'' ∨ mark = '"') ∧ rest.getLast? = some mark then some rest.dropLast else none
  | [] => none

/-- The number that a text spells; a double needs a point that is not its first character. -/
def number? (text : List Char) : Option Expression.Literal :=
  match Decimal.readInt64? text with
  | some value => some (.int value)
  | none =>
      if text.contains '.' && text.head? != some '.' then
        (Decimal.readFloat? text).map .float
      else none

/-- The constant that a text spells, if it is no path. -/
def literal? (text : List Char) : Option Expression.Literal :=
  match unquoted? text with
  | some content => some (.str (.ofList content))
  | none =>
      match String.ofList text with
      | "True" => some (.bool true)
      | "False" => some (.bool false)
      | "None" => some .none
      | _ => number? text

/-- Whether a text is made of letters, numbers and underscores, at least one of them. -/
def isIdentifier (text : List Char) : Bool :=
  !text.isEmpty && text.all Text.isNamePart

/-- The path that a text spells: names with points between them. -/
def path? (text : List Char) : Option Operand :=
  match text.splitOn '.' with
  | [] => none
  | name :: attributes =>
      if isIdentifier name && attributes.all isIdentifier && name.head? != some '_' then
        some (.path (.ofList name) (attributes.map .ofList))
      else none

/-- Read an operand on a line of a template. -/
def readOperand (text : List Char) (line : Nat) : Except TemplateError Operand :=
  let text := Text.trimWhere Text.isBlank text
  match literal? text with
  | some value => .ok (.literal value)
  | none =>
      match path? text with
      | some operand => .ok operand
      | none =>
          let shown := String.ofList text
          .error (.onLine line s!"Could not parse the remainder: '{shown}'")

/-- Read a filter: a name, and an argument behind a colon. -/
def readFilter (line : Nat) (part : List Char) :
    Except TemplateError (String × Option Operand) :=
  let pieces := cutUnquoted ':' part
  let name := Text.trimWhere Text.isBlank (pieces.headD [])
  if isIdentifier name then
    match pieces.tail with
    | [] => .ok (.ofList name, none)
    | rest => do
        let argument ← readOperand ([':'].intercalate rest) line
        return (.ofList name, some argument)
  else
    let shown := String.ofList part
    .error (.onLine line s!"Could not parse filter: '{shown}'")

/-- Read a filter chain on a line of a template. -/
def readChain (text : List Char) (line : Nat) : Except TemplateError FilterChain := do
  let parts := cutUnquoted '|' text
  let base ← readOperand (parts.headD []) line
  let filters ← parts.tail.mapM (readFilter line)
  return ⟨base, filters⟩

end Template
end TemplatedMarkup
