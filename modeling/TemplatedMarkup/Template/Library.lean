import TemplatedMarkup.Table
import TemplatedMarkup.Template.Error

/-!
# Libraries of templates

A template name is a relative path.  It is looked for among the files of a directory, then among
the templates that were added, then among those that are always there.
-/

namespace TemplatedMarkup
namespace Template

/-- The text of the page that documents extend unless they say otherwise. -/
def basePage : String :=
  "<!DOCTYPE html>\n" ++
  "<html lang=\"en\">\n" ++
  "<head>\n" ++
  "<meta charset=\"utf-8\">\n" ++
  "<title>\x7b% block title %\x7d\x7b\x7b title|default:\"\" \x7d\x7d\x7b% endblock %\x7d</title>\n" ++
  "\x7b% block head %\x7d\x7b% endblock %\x7d\n" ++
  "</head>\n" ++
  "<body>\n" ++
  "\x7b% block body %\x7d\x7b% endblock %\x7d\n" ++
  "</body>\n" ++
  "</html>\n"

/-- The name of the page that documents extend unless they say otherwise. -/
def basePageName : String := "base/_base.html"

/-- The templates that are always there. -/
def bundled : Table String :=
  .ofList [(basePageName, basePage)]

/-- Templates under their names. -/
structure Library where
  /-- The files of a directory, under their paths without superfluous parts. -/
  files : Table String
  /-- The templates that were added. -/
  added : Table String

/-- The parts of a path between slashes. -/
def pathParts (path : String) : List (List Char) :=
  path.toList.splitOn '/'

/-- Whether a part of a path stays where it is. -/
def isIdlePart (part : List Char) : Bool :=
  part.isEmpty || part == ['.']

/-- A path without the parts that stay where they are. -/
def canonicalPath (path : String) : String :=
  .ofList (['/'].intercalate ((pathParts path).filter (!isIdlePart ·)))

/-- Whether a path can name a file: its last part does not stay where it is. -/
def namesFile (path : String) : Bool :=
  (pathParts path).getLast?.any (!isIdlePart ·)

/-- Whether a name is a path that does not leave the place that it starts from. -/
def isRelativeName (name : String) : Bool :=
  !name.isEmpty && name.toList.head? != some '/' && !(pathParts name).contains ['.', '.']

namespace Library

/-- The library of the templates that are always there. -/
def empty : Library :=
  ⟨.empty, .empty⟩

/-- Put a file into the directory of a library. -/
def addFile (library : Library) (path text : String) : Library :=
  { library with files := library.files.set (canonicalPath path) text }

/-- Add a template to a library. -/
def add (library : Library) (name text : String) : Library :=
  { library with added := library.added.set name text }

/-- The file of the directory that a name leads to. -/
def file? (library : Library) (name : String) : Option String :=
  if namesFile name then library.files.get? (canonicalPath name) else none

/-- The template with a name. -/
def load (library : Library) (name : String) : Except TemplateError String :=
  if isRelativeName name then
    match ((library.file? name).or (library.added.get? name)).or (bundled.get? name) with
    | some text => .ok text
    | none => .error (.notFound name)
  else .error (.notFound name)

end Library
end Template
end TemplatedMarkup
