import TemplatedMarkup.Template.Tag

/-!
# Open tags

A block, a branch, a loop or a comment stays open until its end tag.  Some of them go on with
another tag first: a branch with a further condition, a loop with what is shown when it has no
items.
-/

namespace TemplatedMarkup
namespace Template

/-- A tag whose end has not been reached, with what has been read of it. -/
inductive OpenTag where
  /-- A block. -/
  | block (name : String)
  /-- The body of a condition, behind earlier conditions and bodies. -/
  | branch (earlier : List (Expression.Expr × List Node)) (condition : Expression.Expr)
  /-- What is shown when no condition holds. -/
  | otherwise (branches : List (Expression.Expr × List Node))
  /-- The body of a loop. -/
  | loop (header : LoopHeader)
  /-- What is shown when a loop has no items. -/
  | empty (header : LoopHeader) (body : List Node)
  /-- A comment; what it holds is read and dropped. -/
  | comment

/-- What an end tag makes of the open tag. -/
inductive Ending where
  /-- A finished node. -/
  | node (node : Node)
  /-- Another open tag in its place. -/
  | next (opened : OpenTag)

namespace OpenTag

/-- The names of the tags that end the body of an open tag. -/
def ends : OpenTag → List String
  | .block _ => ["endblock"]
  | .branch _ _ => ["elif", "else", "endif"]
  | .otherwise _ => ["endif"]
  | .loop _ => ["empty", "endfor"]
  | .empty _ _ => ["endfor"]
  | .comment => ["endcomment"]

/-- End a block; its end tag may repeat the name. -/
def endBlock
    (name : String)
    (body : List Node)
    (arguments : List Char)
    (line : Nat) : Except TemplateError Ending :=
  let repeated := String.ofList arguments
  if arguments.isEmpty ∨ repeated = name then
    .ok (.node (.block name body))
  else
    .error (.onLine line
      s!"expected 'endblock' or 'endblock {name}', found 'endblock {repeated}'")

/-- End the body of a condition, at a further condition, at the last part or at the end tag. -/
def endBranch
    (branches : List (Expression.Expr × List Node))
    (tag : String)
    (arguments : List Char)
    (line : Nat) : Except TemplateError Ending :=
  match tag with
  | "elif" => do
      return .next (.branch branches (← readCondition arguments line))
  | "else" => .ok (.next (.otherwise branches))
  | _ => .ok (.node (.branch branches []))

/-- End the body of an open tag with one of the tags that may end it. -/
def finish
    (opened : OpenTag)
    (body : List Node)
    (tag : String)
    (arguments : List Char)
    (line : Nat) : Except TemplateError Ending :=
  match opened with
  | .block name => endBlock name body arguments line
  | .branch earlier condition => endBranch (earlier ++ [(condition, body)]) tag arguments line
  | .otherwise branches => .ok (.node (.branch branches body))
  | .loop header =>
      if tag = "empty" then .ok (.next (.empty header body))
      else .ok (.node (.loop header body []))
  | .empty header items => .ok (.node (.loop header items body))
  | .comment => .ok (.node (.text ""))

end OpenTag
end Template
end TemplatedMarkup
