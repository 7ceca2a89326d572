import TemplatedMarkup.Text.Search

/-!
# Paragraphs

Two or more line ends in a row separate paragraphs; a single one breaks a line.
-/

namespace TemplatedMarkup
namespace Document

/-- The text with every line end written as one line feed. -/
def normalizeLineEnds : List Char → List Char
  | '\r' :: '\n' :: rest => '\n' :: normalizeLineEnds rest
  | '\r' :: rest => '\n' :: normalizeLineEnds rest
  | character :: rest => character :: normalizeLineEnds rest
  | [] => []

/-- Cut a text at runs of two or more line feeds; `piece` holds a started paragraph in reverse. -/
def paragraphsFrom (piece : List Char) : List Char → List (List Char)
  | [] => [piece.reverse]
  | '\n' :: '\n' :: rest => piece.reverse :: paragraphsFrom [] (rest.dropWhile (· == '\n'))
  | character :: rest => paragraphsFrom (character :: piece) rest
termination_by text => text.length
decreasing_by
  · have shorter := (List.dropWhile_sublist (l := rest) (· == '\n')).length_le
    simp only [List.length_cons]
    omega
  · simp

/-- The paragraphs of a text. -/
def paragraphs (text : List Char) : List (List Char) :=
  paragraphsFrom [] (normalizeLineEnds text)

/-- The text with a tag in place of every line feed. -/
def breakLines (text : List Char) : List Char :=
  text.flatMap fun character => if character = '\n' then "<br>".toList else [character]

/-- A paragraph with its tags. -/
def markParagraph (paragraph : List Char) : List Char :=
  "<p>".toList ++ breakLines paragraph ++ "</p>".toList

/-- The text in paragraphs, with a blank line between them. -/
def linebreaks (text : String) : String :=
  .ofList ("\n\n".toList.intercalate ((paragraphs text.toList).map markParagraph))

/-- The text with every line end as a tag. -/
def linebreaksOnly (text : String) : String :=
  .ofList (breakLines (normalizeLineEnds text.toList))

end Document
end TemplatedMarkup
