import TemplatedMarkup.Template.OpenTag
import TemplatedMarkup.Template.Piece

/-!
# Reading templates

The pieces of a source are read from the first to the last.  Open tags lie on a stack, each with
the nodes that stand before it.
-/

namespace TemplatedMarkup
namespace Template

/-- An open tag on the stack. -/
structure Level where
  /-- The open tag. -/
  opened : OpenTag
  /-- The nodes before the tag in the body around it, in reverse. -/
  before : List Node

/-- What has been read of a template. -/
structure Reading where
  /-- The name of the parent. -/
  parent : Option FilterChain
  /-- Whether a variable or a tag has been read. -/
  started : Bool
  /-- The names of the blocks so far. -/
  blockNames : List String
  /-- The open tags, the innermost first. -/
  levels : List Level
  /-- The nodes of the innermost body so far, in reverse. -/
  nodes : List Node

namespace Reading

/-- Nothing has been read. -/
def start : Reading :=
  ⟨none, false, [], [], []⟩

/-- Add a node to the innermost body. -/
def add (reading : Reading) (node : Node) : Reading :=
  { reading with nodes := node :: reading.nodes }

/-- Open a tag. -/
def push (reading : Reading) (opened : OpenTag) : Reading :=
  { reading with levels := ⟨opened, reading.nodes⟩ :: reading.levels, nodes := [] }

/-- Note that a variable or a tag has been read. -/
def begin (reading : Reading) : Reading :=
  { reading with started := true }

/-- Read the tag that names the parent. -/
def readParent (reading : Reading) (arguments : List Char) (line : Nat) :
    Except TemplateError Reading := do
  if reading.started then
    .error (.onLine line "'extends' must be the first tag in the template")
  else if arguments.isEmpty then
    .error (.onLine line "'extends' takes one argument")
  else
    let parent ← readChain arguments line
    return { reading with parent := some parent }

/-- Open a block, which has a name that no other block has. -/
def openBlock (reading : Reading) (arguments : List Char) (line : Nat) :
    Except TemplateError Reading :=
  let name := String.ofList arguments
  if arguments.isEmpty || arguments.any Text.isBlank then
    .error (.onLine line "'block' takes one argument")
  else if reading.blockNames.contains name then
    .error (.onLine line s!"'block' tag with name '{name}' appears more than once")
  else
    .ok ({ reading with blockNames := name :: reading.blockNames }.push (.block name))

/-- Read the tag that shows another template. -/
def readInclude (reading : Reading) (arguments : List Char) (line : Nat) :
    Except TemplateError Reading := do
  if arguments.isEmpty then
    .error (.onLine line "'include' takes one argument")
  else
    return reading.add (.include (← readChain arguments line))

/-- Read a tag that does not end the innermost open tag. -/
def readStart (reading : Reading) (tag : String) (arguments : List Char) (line : Nat) :
    Except TemplateError Reading :=
  match tag with
  | "extends" => reading.readParent arguments line
  | "block" => reading.openBlock arguments line
  | "if" => do return reading.push (.branch [] (← readCondition arguments line))
  | "for" => do return reading.push (.loop (← readLoop arguments line))
  | "include" => reading.readInclude arguments line
  | "comment" => .ok (reading.push .comment)
  | "" => .error (.onLine line "empty block tag")
  | other => .error (.onLine line s!"Invalid block tag: '{other}'")

/-- Read a tag that ends the innermost open tag. -/
def readEnd
    (reading : Reading)
    (level : Level)
    (outer : List Level)
    (tag : String)
    (arguments : List Char)
    (line : Nat) : Except TemplateError Reading := do
  match ← level.opened.finish reading.nodes.reverse tag arguments line with
  | .node node => return { reading with levels := outer, nodes := node :: level.before }
  | .next opened => return { reading with levels := { level with opened } :: outer, nodes := [] }

/-- Read a tag. -/
def readTag (reading : Reading) (content : List Char) (line : Nat) :
    Except TemplateError Reading :=
  let tag := String.ofList (firstWord content)
  let arguments := behindFirstWord content
  match reading.levels with
  | [] => reading.readStart tag arguments line
  | level :: outer =>
      if level.opened.ends.contains tag then reading.readEnd level outer tag arguments line
      else reading.readStart tag arguments line

/-- Read a variable. -/
def readVariable (reading : Reading) (content : List Char) (line : Nat) :
    Except TemplateError Reading := do
  let content := Text.trimWhere Text.isBlank content
  if content.isEmpty then
    .error (.onLine line "empty variable tag")
  else
    return reading.add (.variable (← readChain content line))

/-- Read a piece. -/
def readPiece (reading : Reading) (piece : Piece) : Except TemplateError Reading :=
  match piece.kind with
  | .text => .ok (reading.add (.text (.ofList piece.content)))
  | .delimited .comment => .ok reading
  | .delimited .variable => do
      return (← reading.readVariable piece.content piece.line).begin
  | .delimited .tag => do
      return (← reading.readTag piece.content piece.line).begin

/-- The template that has been read, unless a tag is open. -/
def finish (reading : Reading) : Except TemplateError Template :=
  match reading.levels with
  | [] => .ok ⟨reading.parent, reading.nodes.reverse⟩
  | level :: _ =>
      let ends := Text.join ", " level.opened.ends
      .error (.malformed s!"Unclosed tag. Looking for one of: {ends}")

end Reading

/-- Read a template. -/
def parse (source : String) : Except TemplateError Template := do
  let reading ← (pieces source).foldlM Reading.readPiece .start
  reading.finish

end Template
end TemplatedMarkup
