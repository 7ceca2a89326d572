import TemplatedMarkup.Document.Block
import TemplatedMarkup.Document.Markup
import TemplatedMarkup.Page.Assembly
import TemplatedMarkup.Template.Render

/-!
# Compiling documents

A document registers its filters, puts its declarations over the context, and becomes a page, which
is rendered with both.  The filters and the context last from one document to the next.
-/

namespace TemplatedMarkup

/-- What a document is compiled with. -/
structure Settings where
  /-- Whether lines that cannot be read are errors. -/
  strict : Bool
  /-- The parent of documents that name none. -/
  defaultParent : String
  /-- The templates. -/
  library : Template.Library
  /-- Tells which links lead to images. -/
  isImage : Document.Classifier

/-- What lasts from one document to the next. -/
structure Session where
  /-- The values that names are bound to. -/
  context : Context
  /-- The filters of documents. -/
  registry : Document.FilterRegistry

namespace Session

/-- The name that the text of a compiled document is bound to. -/
def textName : String := "text"

/-- Bind a name to a value. -/
def bind (session : Session) (name : String) (value : Value) : Session :=
  { session with context := session.context.set name value }

/-- Register the filters of a block, if there is one. -/
def register
    (settings : Settings)
    (session : Session)
    (block : Option String) : Session × Except DocumentError Unit :=
  match block with
  | none => (session, .ok ())
  | some block =>
      let (registry, names) :=
        Document.compileFilters (Text.lines block) session.registry settings.strict
      ({ session with registry }, names.map fun _ => ())

/-- Put the declarations of a block over the context, if there is one. -/
def declare
    (settings : Settings)
    (session : Session)
    (block : Option String) : Except DocumentError Session :=
  match block with
  | none => .ok session
  | some block => do
      return { session with context := ← Document.infer block session.context settings.strict }

/-- The page of a source, given its blocks; without a body block the whole source is the body. -/
def assemble
    (settings : Settings)
    (source : String)
    (blocks : Document.Blocks) : Page :=
  let body := (blocks.get? Document.bodyName).getD source
  let reserved := [
    Document.extendsName, Document.filtersName, Document.contextName, Document.bodyName]
  let others := reserved.foldl Table.erase blocks
  { parent := Page.parentName (blocks.get? Document.extendsName) settings.defaultParent
    blocks := others.entries
    body := Document.transform (Document.joinContinuations body) settings.isImage }

/--
The page of a source.  The filters up to the first that fails stay registered; the context changes
only when there is no error.
-/
def build (settings : Settings) (session : Session) (source : String) :
    Session × Except DocumentError Page :=
  match Document.extract source settings.strict with
  | .error cause => (session, .error cause)
  | .ok blocks =>
      match session.register settings (blocks.get? Document.filtersName) with
      | (session, .error cause) => (session, .error cause)
      | (session, .ok _) =>
          match session.declare settings (blocks.get? Document.contextName) with
          | .error cause => (session, .error cause)
          | .ok session => (session, .ok (assemble settings source blocks))

/-- The text of a page. -/
def render (settings : Settings) (session : Session) (page : Page) :
    Except DocumentError String :=
  (Template.renderSource settings.library session.registry page.source session.context).mapError
    DocumentError.ofTemplate

/-- Compile a source, and bind the text of a document that is compiled. -/
def tryCompile (settings : Settings) (session : Session) (source : String) :
    Session × Except DocumentError String :=
  match session.build settings source with
  | (session, .error cause) => (session, .error cause)
  | (session, .ok page) =>
      match session.render settings page with
      | .error cause => (session, .error cause)
      | .ok text => (session.bind textName (.str text), .ok text)

/-- Compile a source, with the page of the error in place of a document that is not compiled. -/
def compile (settings : Settings) (session : Session) (source : String) : Session × String :=
  match session.tryCompile settings source with
  | (session, .ok text) => (session, text)
  | (session, .error cause) => (session.bind textName (.str cause.page), cause.page)

end Session
end TemplatedMarkup
