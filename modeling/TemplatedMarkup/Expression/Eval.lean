import TemplatedMarkup.Builtin.Method

/-!
# Evaluating expressions

An expression is evaluated in a scope, which says what each name is bound to.  A function body
sees its own parameters only.  The number of function calls that are open at once is bounded, so
every evaluation ends.
-/

namespace TemplatedMarkup

/-- What names are bound to. -/
abbrev Scope := String → Option Value

/-- How many function calls may be open at once. -/
def maxCallDepth : Nat := 32

/-- Apply an operator before its operand. -/
def Expression.UnaryOperator.apply (operator : UnaryOperator) (operand : Value) :
    Except EvalError Value :=
  match operator with
  | .negate => operand.negate
  | .plus => operand.plus
  | .not => .ok (.bool !operand.truthy)

/--
Apply an operator between its operands.  `and` and `or` give one of the operands; evaluation skips
the right one when the left one decides.
-/
def Expression.BinaryOperator.apply (operator : BinaryOperator) (left right : Value) :
    Except EvalError Value :=
  match operator with
  | .add => left.add right
  | .subtract => left.subtract right
  | .multiply => left.multiply right
  | .divide => left.divide right
  | .floorDivide => left.floorDivide right
  | .modulo => left.modulo right
  | .power => left.power right
  | .and => .ok (if left.truthy then right else left)
  | .or => .ok (if left.truthy then left else right)

/-- Whether a comparison holds between two values. -/
def Expression.Comparison.holds (comparison : Comparison) (left right : Value) :
    Except EvalError Bool :=
  match comparison with
  | .equal => .ok (left.equal right)
  | .notEqual => .ok !left.equal right
  | .less => do return (← left.compare right) = .lt
  | .lessEqual => do return (← left.compare right) ≠ .gt
  | .greater => do return (← left.compare right) = .gt
  | .greaterEqual => do return (← left.compare right) ≠ .lt
  | .member => right.contains left
  | .notMember => do return !(← right.contains left)

/--
Whether the left operand alone decides the value of an `and` or an `or`.
-/
def Expression.BinaryOperator.isDecidedBy (operator : BinaryOperator) (left : Value) : Bool :=
  match operator with
  | .and => !left.truthy
  | .or => left.truthy
  | _ => false

/-- The integer of a bound of a slice; the absent value stands for an absent bound. -/
def Value.sliceBound? : Value → Except EvalError (Option Int64)
  | .none => .ok Option.none
  | value =>
      match value.integer? with
      | some bound => .ok (some bound)
      | Option.none => .error .sliceBoundNotInteger

/--
Call what a name stands for: a function bound in the scope, else a built-in one.  `run` carries out
calls of functions.
-/
def callNamed
    (scope : Scope)
    (run : Function → List Value → Except EvalError Value)
    (name : String)
    (arguments : List Value) : Except EvalError Value :=
  match scope name with
  | some (.function closure) => run closure arguments
  | some _ => .error (.notCallable name)
  | none =>
      match Builtin.ofName? name with
      | some builtin => builtin.call arguments
      | none => .error (.notAFunction name)

namespace Expression
namespace Expr

mutual

/-- The value of an expression in a scope; `run` carries out calls of functions. -/
def evalWith
    (scope : Scope)
    (run : Function → List Value → Except EvalError Value) : Expr → Except EvalError Value
  | .literal value => .ok (.ofLiteral value)
  | .variable name =>
      match scope name with
      | some value => .ok value
      | none => .error (.undefinedName name)
  | .list items => do
      checkLength items.length
      return .list (← evalItems scope run 2 items)
  | .dict entries => do
      return .dict (← evalEntries scope run 2 [] entries)
  | .unary operator operand => do
      operator.apply (← operand.evalWith scope run)
  | .binary operator left right => do
      let left ← left.evalWith scope run
      if operator.isDecidedBy left then
        return left
      else
        operator.apply left (← right.evalWith scope run)
  | .comparison first links => do
      let first ← first.evalWith scope run
      return .bool (← evalLinks scope run first links)
  | .conditional condition consequence alternative => do
      if (← condition.evalWith scope run).truthy then
        consequence.evalWith scope run
      else
        alternative.evalWith scope run
  | .call name arguments => do
      callNamed scope run name (← evalArguments scope run arguments)
  | .method receiver name arguments => do
      let receiver ← receiver.evalWith scope run
      callMethod receiver name (← evalArguments scope run arguments)
  | .index collection position => do
      let collection ← collection.evalWith scope run
      collection.item (← position.evalWith scope run)
  | .slice collection start stop step => do
      let collection ← collection.evalWith scope run
      let start ← evalBound scope run start
      let stop ← evalBound scope run stop
      let step ← evalBound scope run step
      collection.slice start stop step

/-- The values of arguments, from the left. -/
def evalArguments
    (scope : Scope)
    (run : Function → List Value → Except EvalError Value) :
    List Expr → Except EvalError (List Value)
  | [] => .ok []
  | argument :: arguments => do
      let value ← argument.evalWith scope run
      return value :: (← evalArguments scope run arguments)

/-- The values of the items of a list, given the footprint of those before them. -/
def evalItems
    (scope : Scope)
    (run : Function → List Value → Except EvalError Value)
    (size : Nat) : List Expr → Except EvalError (List Value)
  | [] => .ok []
  | item :: items => do
      let value ← item.evalWith scope run
      let size := saturate (size + value.footprint)
      checkFootprint size
      return value :: (← evalItems scope run size items)

/-- Insert the values of entries into a dict, given the footprint of those before them. -/
def evalEntries
    (scope : Scope)
    (run : Function → List Value → Except EvalError Value)
    (size : Nat)
    (inserted : List (Value × Value)) :
    List (Expr × Expr) → Except EvalError (List (Value × Value))
  | [] => .ok inserted
  | (key, value) :: entries => do
      let key ← key.evalWith scope run
      let value ← value.evalWith scope run
      let size := saturate (saturate (size + key.footprint) + value.footprint)
      checkFootprint size
      evalEntries scope run size (← Value.insert key value inserted) entries

/-- Whether all links of a chain hold, given the value on the left of the first. -/
def evalLinks
    (scope : Scope)
    (run : Function → List Value → Except EvalError Value)
    (left : Value) : List (Comparison × Expr) → Except EvalError Bool
  | [] => .ok true
  | (relation, operand) :: links => do
      let right ← operand.evalWith scope run
      if ← relation.holds left right then
        evalLinks scope run right links
      else
        return false

/-- The integer of a bound that may be absent. -/
def evalBound
    (scope : Scope)
    (run : Function → List Value → Except EvalError Value) :
    Option Expr → Except EvalError (Option Int64)
  | none => .ok none
  | some bound => do (← bound.evalWith scope run).sliceBound?

end

end Expr
end Expression

namespace Closure

/-- The scope of a function body: every parameter bound to its argument or its default. -/
def frame
    (name : String) :
    List (Parameter Value) → List Value → Except EvalError Scope
  | [], _ => .ok fun _ => none
  | parameter :: parameters, arguments =>
      match arguments.head?.or parameter.default with
      | none => .error (.missingArgument name parameter.name)
      | some value => do
          let others ← frame name parameters arguments.tail
          return fun name =>
            (others name).or (if name = parameter.name then some value else none)

/-- Bind the parameters of a function to arguments. -/
def bindArguments (function : Function) (arguments : List Value) : Except EvalError Scope :=
  if function.parameters.length < arguments.length then
    .error (.tooManyArguments function.name function.parameters.length arguments.length)
  else
    frame function.name function.parameters arguments

/-- Call a function from a place where the given number of calls may still be opened. -/
def callWithin : Nat → Function → List Value → Except EvalError Value
  | 0, _, _ => .error .callsTooDeep
  | remaining + 1, function, arguments => do
      let scope ← bindArguments function arguments
      function.body.evalWith scope (callWithin remaining)

/-- Call a function with arguments. -/
def call (function : Function) (arguments : List Value) : Except EvalError Value :=
  callWithin maxCallDepth function arguments

end Closure

/-- The value of an expression in a scope. -/
def Expression.Expr.eval (expression : Expr) (scope : Scope) : Except EvalError Value :=
  expression.evalWith scope (Closure.callWithin maxCallDepth)

end TemplatedMarkup
