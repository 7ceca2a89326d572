import TemplatedMarkup.Program.Statement
import TemplatedMarkup.Text.Trim

/-!
# Logical lines

A program is cut into logical lines, one for each statement.  A logical line goes on over the end
of a physical line while a bracket is open, behind a backslash, and behind the head of a
definition.  Blank lines and comments between logical lines are skipped.
-/

namespace TemplatedMarkup

/-- A logical line and the number of the physical line that it starts on. -/
structure LogicalLine where
  /-- The number of the first physical line, counted from one. -/
  number : Nat
  /-- The trimmed physical lines, with spaces between them. -/
  text : List Char

namespace LogicalLine

/-- What a scan of brackets has seen. -/
inductive BracketState where
  /-- Code. -/
  | code
  /-- A string that ends at a quote. -/
  | string (mark : Char)
  /-- A string whose next character is escaped. -/
  | escape (mark : Char)

/-- The number of brackets left open, strings and comments apart. -/
def openBrackets (state : BracketState) (depth : Int) : List Char → Int
  | [] => depth
  | character :: rest =>
      match state with
      | .escape mark => openBrackets (.string mark) depth rest
      | .string mark =>
          if character = '\\' then openBrackets (.escape mark) depth rest
          else if character = mark then openBrackets .code depth rest
          else openBrackets (.string mark) depth rest
      | .code =>
          match character with
          | '\'' | '"' => openBrackets (.string character) depth rest
          | '(' | '[' | '{' => openBrackets .code (depth + 1) rest
          | ')' | ']' | '}' => openBrackets .code (depth - 1) rest
          | '#' => depth
          | _ => openBrackets .code depth rest

/-- Whether a physical line holds nothing but a comment, or nothing at all. -/
def isSkipped (line : List Char) : Bool :=
  match Text.trimWhere Text.isBlank line with
  | [] => true
  | first :: _ => first == '#'

/-- A physical line without the backslash that continues it, and whether there was one. -/
def cutBackslash (line : List Char) : List Char × Bool :=
  let trimmed := Text.trimEndWhere Text.isBlank line
  if trimmed.getLast? = some '\\' then (trimmed.dropLast, true) else (line, false)

/-- Whether a text is the head of a definition, whose body is still to come. -/
def isDefinitionHead (text : List Char) : Bool :=
  "def ".toList.isPrefixOf text && text.getLast? == some ':'

/-- A text with the next physical line behind it, and whether more belongs to it. -/
def extend (text line : List Char) : List Char × Bool :=
  let (part, continued) := cutBackslash line
  let gap := if text.isEmpty then [] else [' ']
  let text := text ++ gap ++ Text.trimWhere Text.isBlank part
  (text, continued || isDefinitionHead text || 0 < openBrackets .code 0 text)

/-- Group physical lines, the first of which has the given number. -/
def group
    (number : Nat)
    (pending : Option LogicalLine) :
    List (List Char) → Except Expression.SourceError (List LogicalLine)
  | [] =>
      match pending with
      | none => .ok []
      | some line => .error (.atLine line.number .endOfProgram)
  | line :: lines =>
      if pending.isNone && isSkipped line then group (number + 1) none lines
      else
        let start := pending.getD ⟨number, []⟩
        let (text, open?) := extend start.text line
        if open? then group (number + 1) (some ⟨start.number, text⟩) lines
        else do
          return ⟨start.number, text⟩ :: (← group (number + 1) none lines)

/-- The logical lines of a program. -/
def ofSource (source : String) : Except Expression.SourceError (List LogicalLine) :=
  group 1 none (Text.lineLists source.toList)

/-- The statement of a logical line; an error tells the line's number. -/
def statement (line : LogicalLine) : Except Expression.SourceError Statement :=
  (Statement.parse (.ofList line.text)).mapError (.atLine line.number)

end LogicalLine

/-- Parse a program: the statements of its logical lines. -/
def parseProgram (source : String) : Except Expression.SourceError (List Statement) := do
  (← LogicalLine.ofSource source).mapM LogicalLine.statement

end TemplatedMarkup
