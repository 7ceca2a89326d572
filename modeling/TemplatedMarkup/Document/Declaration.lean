import TemplatedMarkup.Document.Error

/-!
# Declarations

A line of the context block declares a name with a kind and an expression.  The declarations run as
one program, whose bindings are put over the context.
-/

namespace TemplatedMarkup
namespace Document

/-- The kinds that a value can be declared as. -/
inductive DeclaredKind where
  | list
  | dict
  | str
deriving DecidableEq, Repr

/-- The kind that a word names. -/
def DeclaredKind.ofWord? (word : String) : Option DeclaredKind :=
  match word with
  | "list" => some .list
  | "dict" => some .dict
  | "str" => some .str
  | _ => none

/-- The name of a kind in messages. -/
def DeclaredKind.label : DeclaredKind → String
  | .list => "List"
  | .dict => "Dict"
  | .str => "Str"

/-- The kind of the values that a declaration admits. -/
def DeclaredKind.kind : DeclaredKind → Kind
  | .list => .list
  | .dict => .dict
  | .str => .str

/-- A declaration. -/
structure Declaration where
  /-- The declared name. -/
  name : String
  /-- The declared kind. -/
  kind : DeclaredKind
  /-- The text of the expression; that of a dict has no braces. -/
  expression : String
deriving DecidableEq

/-- The statement that binds a declared name. -/
def Declaration.statement (declaration : Declaration) : String :=
  match declaration.kind with
  | .list | .str => s!"{declaration.name} = {declaration.expression}"
  | .dict => s!"{declaration.name} = \x7b{declaration.expression}\x7d"

/-- A word at the start of a text and what follows it. -/
def spanWord (text : List Char) : List Char × List Char :=
  (text.takeWhile Text.isWordPart, text.dropWhile Text.isWordPart)

/-- A text without blanks at its start. -/
def skipBlanks (text : List Char) : List Char :=
  text.dropWhile Text.isBlank

/-- A text without a punctuation at its start and the blanks around it. -/
def skipMark? (mark text : List Char) : Option (List Char) :=
  let text := skipBlanks text
  if mark.isPrefixOf text then some (skipBlanks (text.drop mark.length)) else none

/-- The name, the kind and the expression of a line, as they are written. -/
def readDeclaration? (line : List Char) : Option (List Char × List Char × List Char) := do
  let (name, rest) := spanWord (skipBlanks line)
  if name.isEmpty then
    none
  else
    let rest ← skipMark? [':'] rest
    let (kind, rest) := spanWord rest
    let expression ← skipMark? ['=', '>'] rest
    return (name, kind, Text.trimEndWhere Text.isBlank expression)

/-- The error of a line that declares nothing. -/
def unreadableDeclaration (number : Nat) : DocumentError :=
  .malformed s!"context line {number}: expected 'name: kind => expression'"

/-- The error of a declaration of an unknown kind. -/
def unknownKind (number : Nat) (name kind : List Char) : DocumentError :=
  let kind := String.ofList kind
  let name := String.ofList name
  .malformed s!"context line {number}: unknown kind '{kind}' for '{name}' (expected list, dict or str)"

/-- The declaration on a line, if there is one, or an error. -/
def declarationOnLine (number : Nat) (line : List Char) :
    Except DocumentError Declaration :=
  match readDeclaration? line with
  | none => .error (unreadableDeclaration number)
  | some (name, kind, expression) =>
      match DeclaredKind.ofWord? (.ofList kind) with
      | none => .error (unknownKind number name kind)
      | some known => .ok ⟨.ofList name, known, .ofList expression⟩

/--
The declarations on lines, the first of which has the given number.  Blank lines are skipped; any
other line without a declaration is an error in strict mode and skipped otherwise.
-/
def readDeclarations (strict : Bool) (number : Nat) :
    List (List Char) → Except DocumentError (List Declaration)
  | [] => .ok []
  | line :: lines =>
      if line.all Text.isBlank then readDeclarations strict (number + 1) lines
      else
        match declarationOnLine number line with
        | .error cause =>
            if strict then .error cause else readDeclarations strict (number + 1) lines
        | .ok declaration => do
            return declaration :: (← readDeclarations strict (number + 1) lines)

/-- The declarations of a context block. -/
def declarations (block : String) (strict : Bool) : Except DocumentError (List Declaration) :=
  readDeclarations strict 1 (Text.lineLists block.toList)

/-- Refuse a declared name whose value has another kind than the declared one. -/
def checkKind (context : Context) (declaration : Declaration) : Except DocumentError Unit :=
  match context.get? declaration.name with
  | none => .ok ()
  | some value =>
      if value.kind = declaration.kind.kind then .ok ()
      else
        let kind := declaration.kind.label
        .error (.evaluation
          s!"'{declaration.name}' was declared {kind} but evaluated to {value.kind.name}")

/-- The program that a list of declarations runs as. -/
def programOf (declarations : List Declaration) : String :=
  Text.join "\n" (declarations.map Declaration.statement)

/--
The context with the values of a context block put over it.  In strict mode every declared name has
to have a value of its declared kind.
-/
def infer (block : String) (context : Context) (strict : Bool) :
    Except DocumentError Context := do
  let declarations ← declarations block strict
  if declarations.isEmpty then
    return context
  else
    let inferred ← (Program.harvest 0 (programOf declarations) context).mapError .ofProgram
    if strict then
      declarations.forM (checkKind inferred)
    return inferred

end Document
end TemplatedMarkup
