/-!
# Errors of templates

Why a template is not rendered.
-/

namespace TemplatedMarkup

/-- Why a template is not rendered. -/
inductive TemplateError where
  /-- The source is no template, or it names a filter that does not exist. -/
  | malformed (message : String)
  /-- A value reaches a filter that does not exist. -/
  | unknownFilter (name : String)
  /-- No template has the name. -/
  | notFound (name : String)
  /-- A filter, a loop or an include fails. -/
  | evaluation (message : String)
deriving DecidableEq

/-- What is wrong with a filter that does not exist. -/
def TemplateError.invalidFilter (name : String) : String :=
  s!"Invalid filter: '{name}'"

/-- The text of an error. -/
def TemplateError.message : TemplateError → String
  | .malformed message => s!"template syntax error: {message}"
  | .unknownFilter name => s!"template syntax error: {invalidFilter name}"
  | .notFound name => s!"template not found: {name}"
  | .evaluation message => message

/-- An error in a tag or variable on a line of a template. -/
def TemplateError.onLine (line : Nat) (message : String) : TemplateError :=
  .malformed s!"line {line}: {message}"

end TemplatedMarkup
