import TemplatedMarkup.Document.Comment
import TemplatedMarkup.Document.Error
import TemplatedMarkup.Table

/-!
# Blocks

A marker line opens a named block, which runs to the next marker.  Text before the first marker
belongs to no block.
-/

namespace TemplatedMarkup
namespace Document

/-- The contents of blocks under their names. -/
abbrev Blocks := Table String

/-- The block with the main content. -/
def bodyName : String := "body"

/-- The block that names the parent template. -/
def extendsName : String := "extends"

/-- The block of declarations. -/
def contextName : String := "context"

/-- The block of filters. -/
def filtersName : String := "filters"

/-- What a line is to the splitting into blocks. -/
inductive Marker where
  /-- It opens a block, whose content may start on it. -/
  | opening (name rest : List Char)
  /-- It starts like a marker and names no block. -/
  | malformed
  /-- It is content. -/
  | content

/-- The blanks that may stand before a marker. -/
def isIndent (character : Char) : Bool :=
  character == ' ' || character == '\t'

/-- What a line is: a marker is `-[`, a name and `]`. -/
def Marker.ofLine (line : List Char) : Marker :=
  match line.dropWhile isIndent with
  | '-' :: '[' :: after =>
      match Text.cutAt? ']' after with
      | some (name, rest) =>
          let name := Text.trimWhere Text.isBlank name
          if name.isEmpty then .malformed else .opening name rest
      | none => .malformed
  | _ => .content

/-- A block that is being read: its name and its lines so far, in reverse. -/
structure OpenBlock where
  /-- The name of the block. -/
  name : List Char
  /-- The lines of its content, the last one first. -/
  lines : List (List Char)

/-- The trimmed content of a block. -/
def OpenBlock.content (block : OpenBlock) : List Char :=
  Text.trimWhere Text.isBlank (['\n'].intercalate block.lines.reverse)

/-- Put a finished block into a table. -/
def OpenBlock.close (block : Option OpenBlock) (blocks : Blocks) : Blocks :=
  match block with
  | none => blocks
  | some block => blocks.set (.ofList block.name) (.ofList block.content)

/-- The block that a marker opens; blanks behind a marker are no content. -/
def OpenBlock.start (name rest : List Char) : OpenBlock :=
  ⟨name, if rest.all Text.isBlank then [] else [rest]⟩

/-- A block with one more line of content. -/
def OpenBlock.add (line : List Char) (block : OpenBlock) : OpenBlock :=
  { block with lines := line :: block.lines }

/-- The error of a malformed marker on a line. -/
def malformedMarker (number : Nat) (line : List Char) : DocumentError :=
  .malformed (.ofList
    (s!"line {number}: malformed block marker '".toList ++ Text.trimWhere Text.isBlank line ++
      ['\'']))

/-- Read lines into blocks; the first line has the given number. -/
def readBlocks
    (strict : Bool)
    (number : Nat)
    (current : Option OpenBlock)
    (blocks : Blocks) : List (List Char) → Except DocumentError Blocks
  | [] => .ok (OpenBlock.close current blocks)
  | line :: lines =>
      match Marker.ofLine line with
      | .opening name rest =>
          readBlocks strict (number + 1) (some (OpenBlock.start name rest))
            (OpenBlock.close current blocks) lines
      | .malformed =>
          if strict then .error (malformedMarker number line)
          else readBlocks strict (number + 1) (current.map (·.add line)) blocks lines
      | .content => readBlocks strict (number + 1) (current.map (·.add line)) blocks lines

/--
The blocks of a source.  A repeated name keeps its first place and its last content.  A malformed
marker is an error in strict mode and content otherwise.
-/
def extract (source : String) (strict : Bool) : Except DocumentError Blocks :=
  readBlocks strict 1 none .empty (Text.lineLists (stripCommentList source.toList))

end Document
end TemplatedMarkup
