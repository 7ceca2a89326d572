import TemplatedMarkup.Expression.Expr

/-!
# Printing expressions

An expression is printed with parentheses around every operator form, so that its text reads back
without any rule of precedence.
-/

namespace TemplatedMarkup
namespace Expression

/-- A constant as it is written in a source. -/
def Literal.text : Literal → List Char
  | .none => "None".toList
  | .bool true => "True".toList
  | .bool false => "False".toList
  | .int value => Decimal.integerText value.toInt
  | .float value => Decimal.floatLiteral value
  | .str text => Text.quoted text.toList

/-- The spelling of an operator before its operand. -/
def UnaryOperator.text : UnaryOperator → List Char
  | .negate => "-".toList
  | .plus => "+".toList
  | .not => "not ".toList

/-- The spelling of an operator between its operands. -/
def BinaryOperator.text : BinaryOperator → List Char
  | .add => "+".toList
  | .subtract => "-".toList
  | .multiply => "*".toList
  | .divide => "/".toList
  | .floorDivide => "//".toList
  | .modulo => "%".toList
  | .power => "**".toList
  | .and => "and".toList
  | .or => "or".toList

/-- The spelling of a comparison. -/
def Comparison.text : Comparison → List Char
  | .equal => "==".toList
  | .notEqual => "!=".toList
  | .less => "<".toList
  | .lessEqual => "<=".toList
  | .greater => ">".toList
  | .greaterEqual => ">=".toList
  | .member => "in".toList
  | .notMember => "not in".toList

namespace Expr

mutual

/-- The text of an expression. -/
def text : Expr → List Char
  | .literal value => value.text
  | .variable name => name.toList
  | .list items => '[' :: itemsText items ++ [']']
  | .dict entries => '{' :: entriesText entries ++ ['}']
  | .unary operator operand => '(' :: operator.text ++ operand.text ++ [')']
  | .binary operator left right =>
      '(' :: left.text ++ ' ' :: operator.text ++ ' ' :: right.text ++ [')']
  | .comparison first links => '(' :: first.text ++ linksText links ++ [')']
  | .conditional condition consequence alternative =>
      '(' :: consequence.text ++ " if ".toList ++ condition.text ++ " else ".toList ++
        alternative.text ++ [')']
  | .call name arguments => name.toList ++ '(' :: itemsText arguments ++ [')']
  | .method receiver name arguments =>
      receiver.text ++ '.' :: name.toList ++ '(' :: itemsText arguments ++ [')']
  | .index collection position => collection.text ++ '[' :: position.text ++ [']']
  | .slice collection start stop step =>
      collection.text ++ '[' :: boundText start ++ ':' :: boundText stop ++ stepText step ++ [']']

/-- The texts of the expressions of a list, with commas between them. -/
def itemsText : List Expr → List Char
  | [] => []
  | [item] => item.text
  | item :: items => item.text ++ ", ".toList ++ itemsText items

/-- The texts of keys and values, with commas between the entries. -/
def entriesText : List (Expr × Expr) → List Char
  | [] => []
  | [(key, value)] => key.text ++ ": ".toList ++ value.text
  | (key, value) :: entries =>
      key.text ++ ": ".toList ++ value.text ++ ", ".toList ++ entriesText entries

/-- The text of the links of a chain, each after a space. -/
def linksText : List (Comparison × Expr) → List Char
  | [] => []
  | (operator, operand) :: links =>
      ' ' :: operator.text ++ ' ' :: operand.text ++ linksText links

/-- The text of a bound; an absent one has none. -/
def boundText : Option Expr → List Char
  | none => []
  | some bound => bound.text

/-- The text of a step behind its colon; an absent one has none. -/
def stepText : Option Expr → List Char
  | none => []
  | some step => ':' :: step.text

end

/-- The text of an expression as a string. -/
def print (expression : Expr) : String :=
  .ofList expression.text

end Expr
end Expression
end TemplatedMarkup
