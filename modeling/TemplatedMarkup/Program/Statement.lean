import TemplatedMarkup.Expression.Parser
import TemplatedMarkup.Expression.Printer

/-!
# Statements

A statement binds a name to the value of an expression, or defines a function whose body is one
expression.
-/

namespace TemplatedMarkup

/-- Statements of a program. -/
inductive Statement where
  /-- Bind a name to a value. -/
  | assign (name : String) (value : Expression.Expr)
  /-- Define a function, whose parameters may have defaults. -/
  | define
      (name : String)
      (parameters : List (String × Option Expression.Expr))
      (body : Expression.Expr)

namespace Statement

open Expression TokenParser

/-- Take a name that is not reserved. -/
def ownName (what : String) : TokenParser String := do
  let name ← expectName what
  if isReserved name then
    fail (.reservedName name)
  else
    return name

/-- The default of a parameter, given the parameters before it. -/
def parameterDefault (earlier : List (String × Option Expr)) : TokenParser (Option Expr) := do
  if ← eat .assign then
    return some (← expression)
  else if earlier.any (·.2.isSome) then
    fail .defaultsNotLast
  else
    return none

/-- A parameter, given the parameters before it. -/
def parameter (earlier : List (String × Option Expr)) :
    TokenParser (String × Option Expr) := do
  let name ← ownName "parameter name"
  if earlier.any (·.1 == name) then
    fail (.duplicateParameter name)
  else
    return (name, ← parameterDefault earlier)

/-- The parameters up to a closing parenthesis, which is left in place. -/
def parameterList : TokenParser (List (String × Option Expr)) := do
  let (parameters, _) ← repeatFrom (fun (earlier, finished) => do
    if finished || (← peek) = some (.symbol .rightParen) then
      return none
    else
      let next ← parameter earlier
      return some (earlier ++ [next], !(← eat .comma))) ([], false)
  return parameters

/-- What follows the keyword of a definition. -/
def definition : TokenParser Statement := do
  let name ← ownName "function name after 'def'"
  expect .leftParen "'(' after function name"
  let parameters ← parameterList
  expect .rightParen "')' after parameters"
  expect .colon "':' after function signature"
  expect .returnKeyword "'return' (function bodies are a single return)"
  return .define name parameters (← expression)

/-- A name, an equals sign and an expression. -/
def assignment : TokenParser Statement := do
  let name ← ownName "assignment target"
  let _ ← next
  return .assign name (← expression)

/-- Whether a token is a name. -/
def isName : Option Token → Bool
  | some (.name _) => true
  | _ => false

/-- A statement. -/
def statement : TokenParser Statement := do
  if ← eat .defKeyword then
    definition
  else if isName (← peek) && (← peekSecond) = some (.symbol .assign) then
    assignment
  else
    fail .notAStatement

/-- Parse a text as one statement. -/
def parse (line : String) : Except SourceError Statement := do
  statement.runAll (fun _ => .afterStatement) (← tokenize line)

end Statement
end TemplatedMarkup
