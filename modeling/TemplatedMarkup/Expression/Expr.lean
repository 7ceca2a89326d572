import TemplatedMarkup.Expression.Token

/-!
# Expressions

The tree of an expression, its height, and the renaming of its free names.
-/

namespace TemplatedMarkup
namespace Expression

/-- The constants that a source can write. -/
inductive Literal where
  | none
  | bool (value : Bool)
  | int (value : Int64)
  | float (value : Float)
  | str (text : String)
deriving DecidableEq

/-- Operators before one operand. -/
inductive UnaryOperator where
  | negate
  | plus
  | not
deriving DecidableEq, Repr

/-- Operators between two operands, comparisons apart. -/
inductive BinaryOperator where
  | add
  | subtract
  | multiply
  | divide
  | floorDivide
  | modulo
  | power
  | and
  | or
deriving DecidableEq, Repr

/-- The links of a comparison chain. -/
inductive Comparison where
  | equal
  | notEqual
  | less
  | lessEqual
  | greater
  | greaterEqual
  | member
  | notMember
deriving DecidableEq, Repr

/-- Expressions. -/
inductive Expr where
  /-- A constant. -/
  | literal (value : Literal)
  /-- The value bound to a name. -/
  | variable (name : String)
  /-- A list display. -/
  | list (items : List Expr)
  /-- A dict display. -/
  | dict (entries : List (Expr × Expr))
  /-- An operator before its operand. -/
  | unary (operator : UnaryOperator) (operand : Expr)
  /-- An operator between its operands. -/
  | binary (operator : BinaryOperator) (left right : Expr)
  /-- A chain of comparisons, each operand compared with the next. -/
  | comparison (first : Expr) (links : List (Comparison × Expr))
  /-- One of two expressions, as a condition tells. -/
  | conditional (condition consequence alternative : Expr)
  /-- A call of a function by its name. -/
  | call (name : String) (arguments : List Expr)
  /-- A call of a method of a value. -/
  | method (receiver : Expr) (name : String) (arguments : List Expr)
  /-- One item of a collection. -/
  | index (collection position : Expr)
  /-- A slice of a sequence. -/
  | slice (collection : Expr) (start stop step : Option Expr)

namespace Expr

mutual

/--
Rename the free names of an expression, those of called functions included, all at once.  The
names of methods are no free names.
-/
def rename (image : String → String) : Expr → Expr
  | .literal value => .literal value
  | .variable name => .variable (image name)
  | .list items => .list (renameItems image items)
  | .dict entries => .dict (renameEntries image entries)
  | .unary operator operand => .unary operator (operand.rename image)
  | .binary operator left right => .binary operator (left.rename image) (right.rename image)
  | .comparison first links => .comparison (first.rename image) (renameLinks image links)
  | .conditional condition consequence alternative =>
      .conditional (condition.rename image) (consequence.rename image)
        (alternative.rename image)
  | .call name arguments => .call (image name) (renameItems image arguments)
  | .method receiver name arguments =>
      .method (receiver.rename image) name (renameItems image arguments)
  | .index collection position => .index (collection.rename image) (position.rename image)
  | .slice collection start stop step =>
      .slice (collection.rename image) (renameBound image start) (renameBound image stop)
        (renameBound image step)

/-- Rename the free names of every expression of a list. -/
def renameItems (image : String → String) : List Expr → List Expr
  | [] => []
  | item :: items => item.rename image :: renameItems image items

/-- Rename the free names of every key and value. -/
def renameEntries (image : String → String) : List (Expr × Expr) → List (Expr × Expr)
  | [] => []
  | (key, value) :: entries =>
      (key.rename image, value.rename image) :: renameEntries image entries

/-- Rename the free names of every operand of a chain. -/
def renameLinks (image : String → String) :
    List (Comparison × Expr) → List (Comparison × Expr)
  | [] => []
  | (operator, operand) :: links =>
      (operator, operand.rename image) :: renameLinks image links

/-- Rename the free names of a bound that may be absent. -/
def renameBound (image : String → String) : Option Expr → Option Expr
  | none => none
  | some bound => some (bound.rename image)

end

mutual

/-- The height of a tree; a leaf has height zero. -/
def height : Expr → Nat
  | .literal _ => 0
  | .variable _ => 0
  | .list items => heightItems items
  | .dict entries => heightEntries entries
  | .unary _ operand => operand.height + 1
  | .binary _ left right => max left.height right.height + 1
  | .comparison first links => max (first.height + 1) (heightLinks links)
  | .conditional condition consequence alternative =>
      max condition.height (max consequence.height alternative.height) + 1
  | .call _ arguments => heightItems arguments
  | .method receiver _ arguments => max (receiver.height + 1) (heightItems arguments)
  | .index collection position => max collection.height position.height + 1
  | .slice collection start stop step =>
      max (collection.height + 1) (max (heightBound start)
        (max (heightBound stop) (heightBound step)))

/-- One more than the height of the tallest expression of a list, and zero for none. -/
def heightItems : List Expr → Nat
  | [] => 0
  | item :: items => max (item.height + 1) (heightItems items)

/-- One more than the height of the tallest key or value, and zero for none. -/
def heightEntries : List (Expr × Expr) → Nat
  | [] => 0
  | (key, value) :: entries => max (max key.height value.height + 1) (heightEntries entries)

/-- One more than the height of the tallest operand of a chain, and zero for none. -/
def heightLinks : List (Comparison × Expr) → Nat
  | [] => 0
  | (_, operand) :: links => max (operand.height + 1) (heightLinks links)

/-- One more than the height of a bound, and zero for an absent one. -/
def heightBound : Option Expr → Nat
  | none => 0
  | some bound => bound.height + 1

end

end Expr
end Expression
end TemplatedMarkup
