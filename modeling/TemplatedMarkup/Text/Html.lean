/-!
# Text and HTML

Escaping writes the five characters that HTML reserves as entities, and stripping removes tags.
-/

namespace TemplatedMarkup
namespace Text

/-- The text of a character in HTML. -/
def escapeCharacter : Char → List Char
  | '&' => "&amp;".toList
  | '<' => "&lt;".toList
  | '>' => "&gt;".toList
  | '"' => "&quot;".toList
  | '\'' => "&#x27;".toList
  | character => [character]

/-- The text in HTML, with the five reserved characters written as entities. -/
def escape (text : List Char) : List Char :=
  text.flatMap escapeCharacter

/-- The string in HTML, with the five reserved characters written as entities. -/
def escapeHtml (text : String) : String :=
  .ofList (escape text.toList)

/-- The text of a character in the value of an attribute. -/
def escapeAttributeCharacter : Char → List Char
  | '&' => "&amp;".toList
  | '<' => "&lt;".toList
  | '>' => "&gt;".toList
  | '\'' => "&#x27;".toList
  | '"' => "&quot;".toList
  | character => [character]

/-- The text as the value of an attribute, between quotes of either kind. -/
def escapeAttribute (text : List Char) : List Char :=
  text.flatMap escapeAttributeCharacter

/-- Copy a text up to its last complete tag, leaving tags out; `done` is in reverse. -/
def stripTagsFrom
    (done : List Char) : List Char → List Char
  | [] => done.reverse
  | character :: rest =>
      if character = '<' then
        match _closing : rest.dropWhile (· != '>') with
        | [] => done.reverse ++ character :: rest
        | _ :: after => stripTagsFrom done after
      else
        stripTagsFrom (character :: done) rest
termination_by text => text.length
decreasing_by
  · have shorter := (List.dropWhile_sublist (l := rest) (· != '>')).length_le
    rw [_closing, List.length_cons] at shorter
    simp only [List.length_cons]
    omega
  · simp

/-- The text without its tags: a tag runs from `<` to the next `>`. -/
def stripTags (text : List Char) : List Char :=
  stripTagsFrom [] text

end Text
end TemplatedMarkup
