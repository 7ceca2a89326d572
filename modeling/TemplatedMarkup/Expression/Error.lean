import TemplatedMarkup.Expression.Token

/-!
# Errors in a source

Why a source is not an expression, a statement or a program.
-/

namespace TemplatedMarkup
namespace Expression

/-- Why a source is refused. -/
inductive SourceError where
  /-- A character that starts no token. -/
  | unexpectedCharacter (character : Char)
  /-- A string that its line or the source ends. -/
  | unterminatedString
  /-- An integer that does not fit in 64 bits. -/
  | integerTooLarge (digits : String)
  /-- More open brackets and operators than the nesting limit. -/
  | nestedTooDeeply
  /-- Another token was needed. -/
  | expected (what : String) (found : Option Token)
  /-- A token that starts no operand. -/
  | unexpected (found : Option Token)
  /-- A dot and a name that are not a method call. -/
  | attributeAccess (name : String)
  /-- A name that starts with two underscores. -/
  | reservedName (name : String)
  /-- A comma inside parentheses. -/
  | tuple
  /-- A complete expression with more behind it. -/
  | afterExpression (found : Option Token)
  /-- A parameter declared twice. -/
  | duplicateParameter (name : String)
  /-- A parameter without a default behind one with a default. -/
  | defaultsNotLast
  /-- A line that is no assignment and no definition. -/
  | notAStatement
  /-- A complete statement with more behind it. -/
  | afterStatement
  /-- A program that ends inside a logical line. -/
  | endOfProgram
  /-- An error in the logical line that starts at a line of a program. -/
  | atLine (line : Nat) (cause : SourceError)
deriving DecidableEq

/-- The text of an error. -/
def SourceError.message : SourceError → String
  | .unexpectedCharacter character => "unexpected character '" ++ character.toString ++ "'"
  | .unterminatedString => "unterminated string literal"
  | .integerTooLarge digits => "integer literal too large: " ++ digits
  | .nestedTooDeeply => "expression nested too deeply"
  | .expected what found => "expected " ++ what ++ ", found " ++ Token.describe found
  | .unexpected found => "unexpected " ++ Token.describe found
  | .attributeAccess name => "attribute access is not allowed: '." ++ name ++ "'"
  | .reservedName name => "names beginning with '__' are reserved: '" ++ name ++ "'"
  | .tuple => "tuples are not supported; use a list"
  | .afterExpression found => "unexpected " ++ Token.describe found ++ " after expression"
  | .duplicateParameter name => "duplicate argument '" ++ name ++ "' in function definition"
  | .defaultsNotLast => "non-default argument follows default argument"
  | .notAStatement => "expected 'name = expression' or 'def'"
  | .afterStatement => "unexpected trailing input"
  | .endOfProgram => "unexpected end of input"
  | .atLine line cause => s!"line {line}: {cause.message}"

end Expression
end TemplatedMarkup
