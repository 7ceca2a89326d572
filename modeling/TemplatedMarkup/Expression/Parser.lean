import TemplatedMarkup.Expression.Expr
import TemplatedMarkup.Expression.Lexer
import TemplatedMarkup.Expression.TokenParser

/-!
# Parsing expressions

From the loosest to the tightest form: conditional, `or`, `and`, `not`, comparison chain, sum,
product, sign, power, trailers, atom.  A bracket, a `not`, a sign and an exponent each open one
level of nesting, and the number of open levels is bounded.
-/

namespace TemplatedMarkup
namespace Expression

open TokenParser

/-- How many levels of nesting may be open at once. -/
def maxNesting : Nat := 64

/-- The parsers of what stands one level deeper. -/
structure Nested where
  /-- A whole expression. -/
  expression : TokenParser Expr
  /-- What `not` applies to. -/
  negation : TokenParser Expr
  /-- What a sign or a power applies to. -/
  signed : TokenParser Expr

/-- Append the strings that directly follow a string. -/
def adjacentStrings (text : String) : TokenParser String :=
  repeatFrom (fun text => do
    match ← peek with
    | some (.str more) =>
        let _ ← next
        return some (text ++ more)
    | _ => return none) text

/-- Arguments behind an opening parenthesis, and the closing one. -/
def callArguments (nested : Nested) : TokenParser (List Expr) := do
  let items ← separated nested.expression .rightParen
  expect .rightParen "')' after arguments"
  return items

/-- A key, a colon and a value. -/
def dictEntry (nested : Nested) : TokenParser (Expr × Expr) := do
  let key ← nested.expression
  expect .colon "':' in dict display"
  let value ← nested.expression
  return (key, value)

/-- A name on its own or with the arguments of a call. -/
def nameOrCall
    (nested : Nested)
    (name : String) : TokenParser Expr := do
  if isReserved name then
    fail (.reservedName name)
  else if ← eat .leftParen then
    return .call name (← callArguments nested)
  else
    return .variable name

/-- An expression behind an opening parenthesis, and the closing one. -/
def parenthesized (nested : Nested) : TokenParser Expr := do
  let inner ← nested.expression
  if (← peek) = some (.symbol .comma) then
    fail .tuple
  else
    expect .rightParen "')'"
    return inner

/-- Constants, names, calls, displays and parenthesized expressions. -/
def atom (nested : Nested) : TokenParser Expr := do
  match ← next with
  | some (.int value) => return .literal (.int value)
  | some (.float value) => return .literal (.float value)
  | some (.str text) => return .literal (.str (← adjacentStrings text))
  | some (.symbol .trueKeyword) => return .literal (.bool true)
  | some (.symbol .falseKeyword) => return .literal (.bool false)
  | some (.symbol .noneKeyword) => return .literal .none
  | some (.name name) => nameOrCall nested name
  | some (.symbol .leftParen) => parenthesized nested
  | some (.symbol .leftBracket) =>
      let items ← separated nested.expression .rightBracket
      expect .rightBracket "']' to close list"
      return .list items
  | some (.symbol .leftBrace) =>
      let entries ← separated (dictEntry nested) .rightBrace
      expect .rightBrace "'\x7d' to close dict"
      return .dict entries
  | found => fail (.unexpected found)

/-- A bound of a slice; a colon or a closing bracket stands for an absent one. -/
def sliceBound (nested : Nested) : TokenParser (Option Expr) := do
  let found ← peek
  if found = some (.symbol .colon) ∨ found = some (.symbol .rightBracket) then
    return none
  else
    return some (← nested.expression)

/-- The step of a slice behind its second colon; without either there is none. -/
def sliceStep (nested : Nested) : TokenParser (Option Expr) := do
  if ← eat .colon then
    if (← peek) = some (.symbol .rightBracket) then
      return none
    else
      return some (← nested.expression)
  else
    return none

/-- What follows the first colon of a slice. -/
def sliceRest
    (nested : Nested)
    (collection : Expr)
    (start : Option Expr) : TokenParser Expr := do
  let stop ← sliceBound nested
  let step ← sliceStep nested
  expect .rightBracket "']'"
  return .slice collection start stop step

/-- An index or a slice behind an opening bracket. -/
def subscript
    (nested : Nested)
    (collection : Expr) : TokenParser Expr := do
  if ← eat .colon then
    sliceRest nested collection none
  else
    let first ← nested.expression
    if ← eat .colon then
      sliceRest nested collection (some first)
    else
      expect .rightBracket "']'"
      return .index collection first

/-- A method call behind a dot. -/
def methodCall
    (nested : Nested)
    (receiver : Expr) : TokenParser Expr := do
  let name ← expectName "method name after '.'"
  if ← eat .leftParen then
    return .method receiver name (← callArguments nested)
  else
    fail (.attributeAccess name)

/-- An atom with its subscripts and method calls. -/
def trailers (nested : Nested) : TokenParser Expr := do
  repeatFrom (fun subject => do
    if ← eat .leftBracket then
      return some (← subscript nested subject)
    else if ← eat .dot then
      return some (← methodCall nested subject)
    else return none) (← atom nested)

/-- A power, whose exponent may carry a sign. -/
def power (nested : Nested) : TokenParser Expr := do
  let base ← trailers nested
  if ← eat .doubleStar then
    return .binary .power base (← nested.signed)
  else
    return base

/-- A sign before a signed operand, or a power. -/
def signed (nested : Nested) : TokenParser Expr := do
  if ← eat .minus then
    return .unary .negate (← nested.signed)
  else if ← eat .plus then
    return .unary .plus (← nested.signed)
  else
    power nested

/-- Operands joined by operators of one level, grouped from the left. -/
def leftChain
    (operator : Option Token → Option BinaryOperator)
    (operand : TokenParser Expr) : TokenParser Expr := do
  repeatFrom (fun left => do
    match operator (← peek) with
    | some symbol =>
        let _ ← next
        return some (.binary symbol left (← operand))
    | none => return none) (← operand)

/-- The operators of a product. -/
def productOperator : Option Token → Option BinaryOperator
  | some (.symbol .star) => some .multiply
  | some (.symbol .slash) => some .divide
  | some (.symbol .doubleSlash) => some .floorDivide
  | some (.symbol .percent) => some .modulo
  | _ => none

/-- The operators of a sum. -/
def sumOperator : Option Token → Option BinaryOperator
  | some (.symbol .plus) => some .add
  | some (.symbol .minus) => some .subtract
  | _ => none

/-- The operator of a conjunction. -/
def andOperator : Option Token → Option BinaryOperator
  | some (.symbol .andKeyword) => some .and
  | _ => none

/-- The operator of a disjunction. -/
def orOperator : Option Token → Option BinaryOperator
  | some (.symbol .orKeyword) => some .or
  | _ => none

/-- A product. -/
def product (nested : Nested) : TokenParser Expr :=
  leftChain productOperator (signed nested)

/-- A sum. -/
def sum (nested : Nested) : TokenParser Expr :=
  leftChain sumOperator (product nested)

/-- The comparison that one token spells. -/
def comparisonOperator : Option Token → Option Comparison
  | some (.symbol .equal) => some .equal
  | some (.symbol .notEqual) => some .notEqual
  | some (.symbol .less) => some .less
  | some (.symbol .lessEqual) => some .lessEqual
  | some (.symbol .greater) => some .greater
  | some (.symbol .greaterEqual) => some .greaterEqual
  | some (.symbol .inKeyword) => some .member
  | _ => none

/-- Take a comparison operator, if one follows. -/
def comparisonLink : TokenParser (Option Comparison) := do
  let found ← peek
  match comparisonOperator found with
  | some operator =>
      let _ ← next
      return some operator
  | none =>
      if found = some (.symbol .notKeyword) ∧ (← peekSecond) = some (.symbol .inKeyword) then
        let _ ← next
        let _ ← next
        return some .notMember
      else
        return none

/-- A sum, or a chain of comparisons of sums. -/
def comparisonChain (nested : Nested) : TokenParser Expr := do
  let first ← sum nested
  let links ← repeatFrom (fun links => do
    match ← comparisonLink with
    | some operator => return some ((operator, ← sum nested) :: links)
    | none => return none) []
  if links.isEmpty then
    return first
  else
    return .comparison first links.reverse

/-- A `not` and what it applies to, or a comparison. -/
def negation (nested : Nested) : TokenParser Expr := do
  if ← eat .notKeyword then
    return .unary .not (← nested.negation)
  else
    comparisonChain nested

/-- A conjunction. -/
def conjunction (nested : Nested) : TokenParser Expr :=
  leftChain andOperator (negation nested)

/-- A disjunction. -/
def disjunction (nested : Nested) : TokenParser Expr :=
  leftChain orOperator (conjunction nested)

/-- A disjunction, or a choice between two expressions. -/
def conditional (nested : Nested) : TokenParser Expr := do
  let consequence ← disjunction nested
  if ← eat .ifKeyword then
    let condition ← disjunction nested
    expect .elseKeyword "'else' in conditional expression"
    return .conditional condition consequence (← nested.expression)
  else
    return consequence

/-- The parsers for a position behind which the given number of levels may still be opened. -/
def withLevels : Nat → Nested
  | 0 => ⟨fail .nestedTooDeeply, fail .nestedTooDeeply, fail .nestedTooDeeply⟩
  | levels + 1 =>
      let inner := withLevels levels
      ⟨conditional inner, negation inner, signed inner⟩

/-- An expression, from a position where no level is open. -/
def expression : TokenParser Expr :=
  (withLevels maxNesting).expression

/-- Parse a list of tokens as one expression. -/
def parseTokens (tokens : List Token) : Except SourceError Expr :=
  expression.runAll .afterExpression tokens

/-- Parse a source text as one expression. -/
def parse (source : String) : Except SourceError Expr := do
  parseTokens (← tokenize source)

end Expression
end TemplatedMarkup
