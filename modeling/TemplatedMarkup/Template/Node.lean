import TemplatedMarkup.Expression.Expr

/-!
# Templates

A template is a tree of nodes, with an optional expression for the name of its parent.
-/

namespace TemplatedMarkup
namespace Template

/-- What filters start from: a constant, or a path from a name through attributes. -/
inductive Operand where
  | literal (value : Expression.Literal)
  | path (name : String) (attributes : List String)
deriving DecidableEq

/-- An operand and the filters that it passes through, each with an optional argument. -/
structure FilterChain where
  /-- What the chain starts from. -/
  base : Operand
  /-- The names of the filters and their arguments, in order. -/
  filters : List (String × Option Operand)
deriving DecidableEq

/-- The names and the sequence of a loop. -/
structure LoopHeader where
  /-- The names that an item is unpacked into. -/
  targets : List String
  /-- The sequence. -/
  iterable : FilterChain
  /-- Whether the items are taken from the last to the first. -/
  reversed : Bool
deriving DecidableEq

/-- The nodes of a template. -/
inductive Node where
  /-- Text that is shown as it is. -/
  | text (content : String)
  /-- A value that is shown. -/
  | variable (chain : FilterChain)
  /-- A named part that derived templates may define anew. -/
  | block (name : String) (body : List Node)
  /-- The body behind the first condition that holds, or another one. -/
  | branch (branches : List (Expression.Expr × List Node)) (otherwise : List Node)
  /-- A body for every item of a sequence, or another one when there are none. -/
  | loop (header : LoopHeader) (body empty : List Node)
  /-- Another template in this place. -/
  | include (name : FilterChain)

/-- The names of the filters in a chain. -/
def FilterChain.filterNames (chain : FilterChain) : List String :=
  chain.filters.map (·.1)

namespace Node

mutual

/-- The names of the filters anywhere in a node. -/
def filterNames : Node → List String
  | .text _ => []
  | .variable chain => chain.filterNames
  | .block _ body => filterNamesOf body
  | .branch branches otherwise => filterNamesOfBranches branches ++ filterNamesOf otherwise
  | .loop header body empty =>
      header.iterable.filterNames ++ filterNamesOf body ++ filterNamesOf empty
  | .include name => name.filterNames

/-- The names of the filters anywhere in a list of nodes. -/
def filterNamesOf : List Node → List String
  | [] => []
  | node :: nodes => node.filterNames ++ filterNamesOf nodes

/-- The names of the filters in the bodies of branches. -/
def filterNamesOfBranches : List (Expression.Expr × List Node) → List String
  | [] => []
  | (_, body) :: branches => filterNamesOf body ++ filterNamesOfBranches branches

end

mutual

/-- The blocks of a node, nested ones included, with their bodies. -/
def blocks : Node → List (String × List Node)
  | .block name body => (name, body) :: blocksOf body
  | .branch branches otherwise => blocksOfBranches branches ++ blocksOf otherwise
  | .loop _ body empty => blocksOf body ++ blocksOf empty
  | .text _ | .variable _ | .include _ => []

/-- The blocks of a list of nodes, nested ones included, with their bodies. -/
def blocksOf : List Node → List (String × List Node)
  | [] => []
  | node :: nodes => node.blocks ++ blocksOf nodes

/-- The blocks in the bodies of branches, nested ones included. -/
def blocksOfBranches : List (Expression.Expr × List Node) → List (String × List Node)
  | [] => []
  | (_, body) :: branches => blocksOf body ++ blocksOfBranches branches

end

end Node

end Template

/-- A template. -/
structure Template where
  /-- The name of the parent, if there is one. -/
  parent : Option Template.FilterChain
  /-- The nodes, in order. -/
  nodes : List Template.Node

namespace Template

/-- The names of all filters that a template uses. -/
def filterNames (template : Template) : List String :=
  (template.parent.elim [] FilterChain.filterNames) ++ Node.filterNamesOf template.nodes

/-- The blocks that a template defines. -/
def blocks (template : Template) : List (String × List Node) :=
  Node.blocksOf template.nodes

end Template
end TemplatedMarkup
