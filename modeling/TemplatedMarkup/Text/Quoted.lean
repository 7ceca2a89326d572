/-!
# Quoted text

A text is quoted between apostrophes, or between double quotes when it contains an apostrophe and
no double quote.  Backslashes, line feeds, tabs and the quote itself are escaped.
-/

namespace TemplatedMarkup
namespace Text

/-- The quote character that a text is written between. -/
def quoteMark (text : List Char) : Char :=
  if text.contains '\'' && !text.contains '"' then '"' else '\''

/-- A character inside a quoted text. -/
def quoteCharacter
    (mark character : Char) : List Char :=
  if character = '\\' then ['\\', '\\']
  else if character = '\n' then ['\\', 'n']
  else if character = '\t' then ['\\', 't']
  else if character = mark then ['\\', character]
  else [character]

/-- The text between quotes, with escapes. -/
def quoted (text : List Char) : List Char :=
  let mark := quoteMark text
  mark :: text.flatMap (quoteCharacter mark) ++ [mark]

end Text
end TemplatedMarkup
