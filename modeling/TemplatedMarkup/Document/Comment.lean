import TemplatedMarkup.Text.Trim

/-!
# Comments and continued lines

A comment runs from `//` to the end of its line, except directly behind a colon, where `//` belongs
to an address.  A backslash at the end of a line joins the line with the next one.
-/

namespace TemplatedMarkup
namespace Document

/-- A line up to its comment, given the character before it. -/
def cutComment (previous : Option Char) : List Char → List Char
  | '/' :: '/' :: rest =>
      if previous = some ':' then '/' :: '/' :: cutComment (some '/') rest else []
  | character :: rest => character :: cutComment (some character) rest
  | [] => []

/-- The text without its comments. -/
def stripCommentList (text : List Char) : List Char :=
  ['\n'].intercalate ((text.splitOn '\n').map (cutComment none))

/-- The text without its comments. -/
def stripComments (text : String) : String :=
  .ofList (stripCommentList text.toList)

/-- The blanks that may stand between a backslash and the end of its line. -/
def isJoinBlank (character : Char) : Bool :=
  character == ' ' || character == '\t' || character == '\r'

/-- The text with every backslash at the end of a line removed, together with that end. -/
def joinLines : List Char → List Char
  | [] => []
  | character :: rest =>
      if character = '\\' then
        match _ending : rest.dropWhile isJoinBlank with
        | '\n' :: after => joinLines after
        | _ => '\\' :: joinLines rest
      else character :: joinLines rest
termination_by text => text.length
decreasing_by
  · have shorter := (List.dropWhile_sublist (l := rest) isJoinBlank).length_le
    rw [_ending, List.length_cons] at shorter
    simp only [List.length_cons]
    omega
  all_goals simp

/-- The text with continued lines joined. -/
def joinContinuations (text : String) : String :=
  .ofList (joinLines text.toList)

end Document
end TemplatedMarkup
