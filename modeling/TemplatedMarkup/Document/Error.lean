import TemplatedMarkup.Document.Paragraph
import TemplatedMarkup.Program.Run
import TemplatedMarkup.Template.Error
import TemplatedMarkup.Text.Html

/-!
# Errors of documents

Why a document is not compiled, with a hint to its author, and the page that is shown in its place.
-/

namespace TemplatedMarkup

/-- Why a document is not compiled. -/
inductive DocumentError where
  /-- A marker, a declaration or a filter that cannot be read. -/
  | malformed (message : String)
  /-- A filter whose name starts with an underscore. -/
  | forbiddenName (name : String)
  /-- A declaration, a filter or a loop that fails. -/
  | evaluation (message : String)
  /-- The assembled template cannot be read. -/
  | template (message : String)
  /-- A template that does not exist. -/
  | templateMissing (name : String)
deriving DecidableEq

namespace DocumentError

/-- The text of an error. -/
def message : DocumentError → String
  | .malformed message => message
  | .forbiddenName name =>
      s!"invalid filter name '{name}': names beginning with '_' are reserved"
  | .evaluation message => message
  | .template message => message
  | .templateMissing name => name

/-- What the author may have done wrong; most errors have no hint. -/
def hint : DocumentError → String
  | .forbiddenName _ => "This error can occur if filter or tag names begin with `_`"
  | .templateMissing name =>
      s!"\nInvalid value for -[extends] or -[include], {name} not found"
  | _ => ""

/-- The error of a document whose program fails. -/
def ofProgram (cause : ProgramError) : DocumentError :=
  match cause with
  | .source _ => .malformed cause.message
  | .evaluation _ | .unbound _ => .evaluation cause.message

/-- The error of a document whose template fails. -/
def ofTemplate (cause : TemplateError) : DocumentError :=
  match cause with
  | .malformed _ | .unknownFilter _ => .template cause.message
  | .notFound name => .templateMissing name
  | .evaluation message => .evaluation message

/-- Text of an author, escaped and in paragraphs. -/
def paragraphs (text : String) : String :=
  Document.linebreaks (Text.escapeHtml text)

/-- The page that is shown for an error. -/
def page (cause : DocumentError) : String :=
  let message := paragraphs cause.message
  let hint := paragraphs cause.hint
  s!"Something went wrong :( <br>{message}<br>{hint}"

end DocumentError
end TemplatedMarkup
