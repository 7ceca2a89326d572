import TemplatedMarkup.Expression.Parser
import TemplatedMarkup.Template.Chain

/-!
# Reading tags

The conditions of branches and the headers of loops.
-/

namespace TemplatedMarkup
namespace Template

/-- The first word of a tag. -/
def firstWord (content : List Char) : List Char :=
  (Text.words content).headD []

/-- What stands behind the first word of a tag. -/
def behindFirstWord (content : List Char) : List Char :=
  let content := content.dropWhile Text.isBlank
  Text.trimWhere Text.isBlank (content.drop (firstWord content).length)

/-- Write a point and a name that is no method call as a subscript. -/
def subscriptAttributes : List Expression.Token → List Expression.Token
  | .symbol .dot :: .name name :: .symbol .leftParen :: rest =>
      .symbol .dot :: .name name :: .symbol .leftParen :: subscriptAttributes rest
  | .symbol .dot :: .name name :: rest =>
      .symbol .leftBracket :: .str name :: .symbol .rightBracket :: subscriptAttributes rest
  | token :: rest => token :: subscriptAttributes rest
  | [] => []

/-- Why the tokens of a condition are refused. -/
def conditionError (line : Nat) (source : List Char) (cause : Expression.SourceError) :
    TemplateError :=
  match cause with
  | .afterExpression _ =>
      let shown := String.ofList (Text.trimWhere Text.isBlank source)
      .onLine line s!"unused input in condition '{shown}'"
  | cause => .onLine line cause.message

/-- Read the condition of a branch: an expression in which attributes are subscripts. -/
def readCondition (source : List Char) (line : Nat) :
    Except TemplateError Expression.Expr := do
  if source.all Text.isBlank then
    .error (.onLine line "'if' needs a condition")
  else
    let tokens ← (Expression.lex source).mapError fun cause => .onLine line cause.message
    (Expression.parseTokens (subscriptAttributes tokens)).mapError (conditionError line source)

/-- The error of a loop without names, `in` and a sequence. -/
def loopFormat (line : Nat) : TemplateError :=
  .onLine line "'for' statements should use the format 'for x in y'"

/-- The names of a loop, between commas. -/
def loopTargets (words : List (List Char)) : List (List Char) :=
  (([' '].intercalate words).splitOn ',').map (Text.trimWhere Text.isBlank)

/-- The words of a sequence, and whether it is reversed. -/
def loopIterable (words : List (List Char)) : List (List Char) × Bool :=
  if words.getLast? = some "reversed".toList then (words.dropLast, true) else (words, false)

/-- Read the header of a loop. -/
def readLoop (arguments : List Char) (line : Nat) : Except TemplateError LoopHeader := do
  let words := Text.words arguments
  let isIn (word : List Char) : Bool := word == "in".toList
  let (iterable, reversed) := loopIterable (words.dropWhile (!isIn ·)).tail
  if iterable.isEmpty then
    .error (loopFormat line)
  else
    let chain ← readChain ([' '].intercalate iterable) line
    let targets := loopTargets (words.takeWhile (!isIn ·))
    if targets.all isIdentifier then
      return ⟨targets.map .ofList, chain, reversed⟩
    else
      let shown := String.ofList arguments
      .error (.onLine line s!"'for' tag received an invalid argument: '{shown}'")

end Template
end TemplatedMarkup
