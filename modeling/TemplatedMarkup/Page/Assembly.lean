import TemplatedMarkup.Document.Paragraph
import TemplatedMarkup.Text.Trim

/-!
# Assembled pages

The blocks and the body of a document fill the blocks of a parent template.
-/

namespace TemplatedMarkup

/-- A document as a template that fills the blocks of its parent. -/
structure Page where
  /-- The name of the parent. -/
  parent : String
  /-- The blocks besides the body, in order. -/
  blocks : List (String × String)
  /-- The body, with its markup converted. -/
  body : String
deriving DecidableEq

namespace Page

/-- The tag that names the parent, between quotes that its name leaves free. -/
def parentTag (parent : String) : String :=
  let quote := if parent.toList.contains '\'' then "\"" else "'"
  s!"\x7b% extends {quote}{parent}{quote} %\x7d"

/-- A block with its tags; blanks keep the content apart from them. -/
def blockTags (block : String × String) : String :=
  s!"\x7b% block {block.1} %\x7d {block.2} \x7b% endblock %\x7d"

/-- The source of the template that a page stands for. -/
def source (page : Page) : String :=
  let blocks := String.join (page.blocks.map blockTags)
  let body := Document.linebreaks page.body
  s!"{parentTag page.parent}{blocks}\x7b% block body %\x7d{body}\x7b% endblock %\x7d"

/-- The template that a block names, with points between the parts of its path. -/
def parentName (block : Option String) (default : String) : String :=
  match block with
  | none => default
  | some name =>
      let name := Text.trim name
      if name = "" ∨ name = "default" then default
      else
        let path := String.ofList (name.toList.map fun character =>
          if character = '.' then '/' else character)
        s!"{path}.html"

end Page
end TemplatedMarkup
