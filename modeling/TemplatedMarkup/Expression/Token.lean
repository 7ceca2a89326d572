import TemplatedMarkup.Decimal.Notation
import TemplatedMarkup.Text.Quoted

/-!
# Tokens

The tokens of expressions and statements.  A source is a list of tokens; its end is the end of
that list.
-/

namespace TemplatedMarkup
namespace Expression

/-- Keywords, operators and punctuation. -/
inductive Symbol where
  | andKeyword
  | orKeyword
  | notKeyword
  | inKeyword
  | ifKeyword
  | elseKeyword
  | trueKeyword
  | falseKeyword
  | noneKeyword
  | defKeyword
  | returnKeyword
  | plus
  | minus
  | star
  | doubleStar
  | slash
  | doubleSlash
  | percent
  | equal
  | notEqual
  | less
  | lessEqual
  | greater
  | greaterEqual
  | assign
  | leftParen
  | rightParen
  | leftBracket
  | rightBracket
  | leftBrace
  | rightBrace
  | comma
  | colon
  | dot
deriving DecidableEq, Repr

/-- The name of a symbol in messages. -/
def Symbol.label : Symbol → String
  | .andKeyword => "And"
  | .orKeyword => "Or"
  | .notKeyword => "Not"
  | .inKeyword => "In"
  | .ifKeyword => "If"
  | .elseKeyword => "Else"
  | .trueKeyword => "True"
  | .falseKeyword => "False"
  | .noneKeyword => "None"
  | .defKeyword => "Def"
  | .returnKeyword => "Return"
  | .plus => "Plus"
  | .minus => "Minus"
  | .star => "Star"
  | .doubleStar => "StarStar"
  | .slash => "Slash"
  | .doubleSlash => "SlashSlash"
  | .percent => "Percent"
  | .equal => "Eq"
  | .notEqual => "Ne"
  | .less => "Lt"
  | .lessEqual => "Le"
  | .greater => "Gt"
  | .greaterEqual => "Ge"
  | .assign => "Assign"
  | .leftParen => "LParen"
  | .rightParen => "RParen"
  | .leftBracket => "LBracket"
  | .rightBracket => "RBracket"
  | .leftBrace => "LBrace"
  | .rightBrace => "RBrace"
  | .comma => "Comma"
  | .colon => "Colon"
  | .dot => "Dot"

/-- A token of a source. -/
inductive Token where
  /-- An integer. -/
  | int (value : Int64)
  /-- A number with a fraction or an exponent. -/
  | float (value : Float)
  /-- A string, with its escapes resolved. -/
  | str (text : String)
  /-- A name that is not a keyword. -/
  | name (text : String)
  /-- A keyword, an operator or punctuation. -/
  | symbol (kind : Symbol)
deriving DecidableEq

/-- What a message calls the next token, or the end of the source. -/
def Token.describe : Option Token → String
  | none => "end of input"
  | some (.name text) => "name '" ++ text ++ "'"
  | some (.str text) => "string " ++ .ofList (Text.quoted text.toList)
  | some (.int value) => "number " ++ .ofList (Decimal.integerText value.toInt)
  | some (.float value) => "number " ++ .ofList (Decimal.floatText value)
  | some (.symbol kind) => kind.label

/-- The keyword that a word is, if it is one. -/
def Symbol.ofWord? (word : String) : Option Symbol :=
  match word with
  | "and" => some .andKeyword
  | "or" => some .orKeyword
  | "not" => some .notKeyword
  | "in" => some .inKeyword
  | "if" => some .ifKeyword
  | "else" => some .elseKeyword
  | "True" => some .trueKeyword
  | "False" => some .falseKeyword
  | "None" => some .noneKeyword
  | "def" => some .defKeyword
  | "return" => some .returnKeyword
  | _ => none

/-- The token that a word spells: a keyword or a name. -/
def Token.ofWord (word : List Char) : Token :=
  let text := String.ofList word
  match Symbol.ofWord? text with
  | some kind => .symbol kind
  | none => .name text

/-- Names that start with two underscores are reserved. -/
def isReserved (name : String) : Bool :=
  "__".toList.isPrefixOf name.toList

end Expression
end TemplatedMarkup
