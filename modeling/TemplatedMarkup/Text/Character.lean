import TemplatedMarkup.Text.Table.Alphabetic
import TemplatedMarkup.Text.Table.Mark
import TemplatedMarkup.Text.Table.Numeric

/-!
# Character classes

The classes of characters that names, words and blanks are made of.  Each class is decided
directly on ASCII and by a table of ranges beyond it.  Letters and numbers are those of Unicode 17,
the words of declarations those of Unicode 16.
-/

namespace TemplatedMarkup
namespace Text

/-- Letters: characters with the Alphabetic property. -/
def isLetter (character : Char) : Bool :=
  character.isAlpha || inRanges alphabeticRanges character.toNat

/-- Digits and other numbers of any script. -/
def isNumber (character : Char) : Bool :=
  character.isDigit || inRanges numericRanges character.toNat

/-- Decimal digits of any script. -/
def isDecimalDigit (character : Char) : Bool :=
  character.isDigit || inRanges decimalDigitRanges character.toNat

/-- A name starts with a letter or an underscore. -/
def isNameStart (character : Char) : Bool :=
  isLetter character || character == '_'

/-- A name goes on with letters, numbers and underscores. -/
def isNamePart (character : Char) : Bool :=
  isLetter character || isNumber character || character == '_'

/-- Words of declarations are made of letters, marks, decimal digits and connectors. -/
def isWordPart (character : Char) : Bool :=
  (isLetter character || isDecimalDigit character || character == '_' ||
    inRanges markRanges character.toNat || inRanges connectorRanges character.toNat) &&
    !inRanges recentRanges character.toNat

/-- The code points with the White_Space property. -/
def blankRanges : List CodeRange := [
  ⟨9, 13⟩, ⟨32, 32⟩, ⟨133, 133⟩, ⟨160, 160⟩, ⟨5760, 5760⟩, ⟨8192, 8202⟩, ⟨8232, 8233⟩,
  ⟨8239, 8239⟩, ⟨8287, 8287⟩, ⟨12288, 12288⟩]

/-- Blanks: characters with the White_Space property. -/
def isBlank (character : Char) : Bool :=
  inRanges blankRanges character.toNat

/-- Blanks of ASCII: space, tab, line feed, form feed and carriage return. -/
def isAsciiBlank (character : Char) : Bool :=
  character == ' ' || character == '\t' || character == '\n' || character == '\x0c' ||
    character == '\r'

end Text
end TemplatedMarkup
