import TemplatedMarkup.Document.Paragraph
import TemplatedMarkup.Text.Case
import TemplatedMarkup.Text.Html
import TemplatedMarkup.Text.Trim
import TemplatedMarkup.Value.Text

/-!
# Built-in filters

A filter maps a value, together with a mark that tells whether its text may be shown as it is.
Text without the mark is escaped when it is shown.
-/

namespace TemplatedMarkup
namespace Template

/-- A value on its way through filters. -/
structure Marked where
  /-- The value. -/
  value : Value
  /-- Whether its text may be shown without escaping. -/
  safe : Bool

/-- The text that is shown for a marked value. -/
def Marked.text (marked : Marked) : String :=
  if marked.safe then marked.value.display else Text.escapeHtml marked.value.display

/-- Why a built-in filter fails. -/
inductive FilterError where
  /-- A filter that needs an argument has none. -/
  | argumentMissing (filter : String)
deriving DecidableEq

/-- The text of an error. -/
def FilterError.message : FilterError → String
  | .argumentMissing filter => s!"{filter} requires 2 arguments, 1 provided"

/-- The filters that need no definition. -/
inductive BuiltinFilter where
  | upper
  | lower
  | title
  | capfirst
  | length
  | default
  | join
  | first
  | last
  | safe
  | escape
  | linebreaks
  | linebreaksbr
  | striptags
deriving DecidableEq, Repr

namespace BuiltinFilter

/-- The name that a filter is written with. -/
def name : BuiltinFilter → String
  | .upper => "upper"
  | .lower => "lower"
  | .title => "title"
  | .capfirst => "capfirst"
  | .length => "length"
  | .default => "default"
  | .join => "join"
  | .first => "first"
  | .last => "last"
  | .safe => "safe"
  | .escape => "escape"
  | .linebreaks => "linebreaks"
  | .linebreaksbr => "linebreaksbr"
  | .striptags => "striptags"

/-- All built-in filters. -/
def every : List BuiltinFilter := [
  .upper, .lower, .title, .capfirst, .length, .default, .join, .first, .last, .safe, .escape,
  .linebreaks, .linebreaksbr, .striptags]

/-- The built-in filter with a name. -/
def ofName? (name : String) : Option BuiltinFilter :=
  every.find? fun filter => filter.name == name

/-- Change the text of a value; the mark stays. -/
def mapText (change : List Char → List Char) (marked : Marked) : Marked :=
  { marked with value := .ofText (change marked.value.display.toList) }

/-- The number of characters, items or entries of a value. -/
def lengthOf : Value → Nat
  | .str text => text.length
  | .list items => items.length
  | .dict entries => entries.length
  | _ => 0

/-- The items of a list joined with a separator, which is escaped. -/
def joinItems (items : List Value) (safe : Bool) (separator : Option Value) : Value :=
  let separator := separator.elim "" Value.display
  .str (Text.join (Text.escapeHtml separator) (items.map fun item => (Marked.mk item safe).text))

/-- An item of a list or a character of a string, as a selection picks it. -/
def pick (select : {Item : Type} → List Item → Option Item) (value : Value) : Value :=
  match value with
  | .list items => (select items).getD (.str "")
  | .str text => .ofText (select text.toList).toList
  | _ => .str ""

/-- Apply a built-in filter with an optional argument. -/
def apply (filter : BuiltinFilter) (marked : Marked) (argument : Option Value) :
    Except FilterError Marked :=
  match filter with
  | .upper => .ok (mapText Text.upper marked)
  | .lower => .ok (mapText Text.lower marked)
  | .title => .ok (mapText Text.title marked)
  | .capfirst => .ok (mapText Text.upperFirst marked)
  | .length => .ok ⟨.ofCount (lengthOf marked.value), true⟩
  | .default =>
      match argument with
      | none => .error (.argumentMissing filter.name)
      | some value => .ok (if marked.value.truthy then marked else ⟨value, true⟩)
  | .join =>
      match marked.value with
      | .list items => .ok ⟨joinItems items marked.safe argument, true⟩
      | _ => .ok marked
  | .first => .ok { marked with value := pick List.head? marked.value }
  | .last => .ok { marked with value := pick List.getLast? marked.value }
  | .safe => .ok { marked with safe := true }
  | .escape => .ok ⟨.str marked.text, true⟩
  | .linebreaks => .ok ⟨.str (Document.linebreaks marked.text), true⟩
  | .linebreaksbr => .ok ⟨.str (Document.linebreaksOnly marked.text), true⟩
  | .striptags => .ok (mapText Text.stripTags marked)

end BuiltinFilter
end Template
end TemplatedMarkup
