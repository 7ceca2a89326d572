import TemplatedMarkup.Text.Character

/-!
# Trimming and cutting text

Texts are cut at characters and trimmed at their ends.  The functions on character lists carry
the definitions; those on strings wrap them.
-/

namespace TemplatedMarkup
namespace Text

/-- Drop the longest run of characters of a class from the end. -/
def trimEndWhere
    (drops : Char → Bool)
    (text : List Char) : List Char :=
  (text.reverse.dropWhile drops).reverse

/-- Drop the longest runs of characters of a class from both ends. -/
def trimWhere
    (drops : Char → Bool)
    (text : List Char) : List Char :=
  trimEndWhere drops (text.dropWhile drops)

/-- The text without blanks at its ends. -/
def trim (text : String) : String :=
  .ofList (trimWhere isBlank text.toList)

/-- The text without blanks at its start. -/
def trimStart (text : String) : String :=
  .ofList (text.toList.dropWhile isBlank)

/-- The text without blanks at its end. -/
def trimEnd (text : String) : String :=
  .ofList (trimEndWhere isBlank text.toList)

/-- The maximal runs of characters that are not blank. -/
def words (text : List Char) : List (List Char) :=
  (text.splitOnP isBlank).filter (!·.isEmpty)

/-- The part before the first occurrence of a character and the part after it. -/
def cutAt?
    (separator : Char)
    (text : List Char) : Option (List Char × List Char) :=
  match text.dropWhile (· != separator) with
  | [] => none
  | _ :: after => some (text.takeWhile (· != separator), after)

/-- A line without the carriage return that precedes its line feed. -/
def dropCarriageReturn (line : List Char) : List Char :=
  if line.getLast? = some '\r' then line.dropLast else line

/--
The lines of a text.  A line ends at a line feed, before which one carriage return is dropped; an
empty last line does not count.
-/
def lineLists (text : List Char) : List (List Char) :=
  let pieces := text.splitOn '\n'
  pieces.dropLast.map dropCarriageReturn ++ (pieces.getLast?.toList.filter (!·.isEmpty))

/-- The lines of a string, without their terminators. -/
def lines (text : String) : List String :=
  (lineLists text.toList).map .ofList

/-- Concatenate strings with a separator between neighbours. -/
def join
    (separator : String)
    (parts : List String) : String :=
  .ofList (separator.toList.intercalate (parts.map (·.toList)))

end Text
end TemplatedMarkup
