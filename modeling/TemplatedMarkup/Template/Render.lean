import TemplatedMarkup.Template.Eval
import TemplatedMarkup.Template.Library
import TemplatedMarkup.Template.Loop
import TemplatedMarkup.Template.Parser

/-!
# Rendering

A template with a parent is rendered as its most distant ancestor, in which every block is shown
by the template closest to it that defines the block.  The definitions in front of a template are
therefore ways to show blocks, and rendering follows the nodes of one template only.

The numbers of ancestors and of nested templates are bounded, so every rendering ends.
-/

namespace TemplatedMarkup
namespace Template

/-- How many ancestors a template may have. -/
def maxAncestors : Nat := 10

/-- How deep templates may be nested in others. -/
def maxIncludes : Nat := 10

/-- The text of something in a scope. -/
abbrev Rendering := Scope → Except TemplateError String

/-- How the blocks with some names are shown. -/
abbrev Overrides := String → Option Rendering

/-- What nodes refer to besides the scope. -/
structure Surroundings where
  /-- The filters of documents. -/
  registry : Document.FilterRegistry
  /-- How another template is shown, unless it would be nested too deep. -/
  include? : Option (String → Rendering)

/-- The error of templates that are nested too deep. -/
def includesTooDeep : TemplateError :=
  .evaluation s!"include nested deeper than {maxIncludes}"

/-- Whether a condition holds; one without a value does not. -/
def holds (condition : Expression.Expr) (scope : Scope) : Bool :=
  match condition.eval scope with
  | .ok value => value.truthy
  | .error _ => false

/-- Show a body for every item of a loop. -/
def renderItems
    (targets : List String)
    (items : List Value)
    (body : Rendering) : Rendering :=
  fun scope => do
    let length := items.length
    let texts ← items.zipIdx.mapM fun (item, position) => do
      body (← loopScope targets length scope item position)
    return String.join texts

namespace Node

mutual

/-- The text of a node. -/
def render (surroundings : Surroundings) (overrides : Overrides) : Node → Rendering
  | .text content, _ => .ok content
  | .variable chain, scope => do
      return (← chain.eval surroundings.registry scope).text
  | .block name body, scope =>
      match overrides name with
      | some shown => shown scope
      | none => renderAll surroundings overrides body scope
  | .branch branches otherwise, scope =>
      match renderBranch? surroundings overrides branches scope with
      | some shown => shown
      | none => renderAll surroundings overrides otherwise scope
  | .loop header body empty, scope => do
      let sequence ← header.iterable.eval surroundings.registry scope
      let items ← loopItems sequence.value header.reversed
      if items.isEmpty then
        renderAll surroundings overrides empty scope
      else
        renderItems header.targets items (renderAll surroundings overrides body) scope
  | .include chain, scope =>
      match surroundings.include? with
      | none => .error includesTooDeep
      | some shown => do
          let name ← chain.eval surroundings.registry scope
          shown name.value.display scope

/-- The text of nodes, one behind the other. -/
def renderAll (surroundings : Surroundings) (overrides : Overrides) : List Node → Rendering
  | [], _ => .ok ""
  | node :: nodes, scope => do
      let text ← node.render surroundings overrides scope
      return text ++ (← renderAll surroundings overrides nodes scope)

/-- The text of the body behind the first condition that holds. -/
def renderBranch? (surroundings : Surroundings) (overrides : Overrides) :
    List (Expression.Expr × List Node) → Scope → Option (Except TemplateError String)
  | [], _ => none
  | (condition, body) :: branches, scope =>
      if holds condition scope then some (renderAll surroundings overrides body scope)
      else renderBranch? surroundings overrides branches scope

end

end Node

/-- How blocks are shown in front of the parent of a template. -/
def overrides
    (template : Template)
    (surroundings : Surroundings)
    (overrides : Overrides) : Overrides :=
  fun name =>
    (overrides name).or
      ((template.blocks.lookup name).map (Node.renderAll surroundings overrides))

/-- The text of the last of a template and its ancestors, given what is in front of the first. -/
def renderLineage
    (surroundings : Surroundings)
    (overrides : Overrides)
    (template : Template) : List Template → Rendering
  | [] => Node.renderAll surroundings overrides template.nodes
  | parent :: ancestors =>
      renderLineage surroundings (template.overrides surroundings overrides) parent ancestors

/-- The template with a name, if all its filters exist. -/
def loadChecked
    (library : Library)
    (registry : Document.FilterRegistry)
    (name : String) : Except TemplateError Template := do
  let template ← parse (← library.load name)
  checkFilters registry template
  return template

/--
The ancestors of a template, from its parent on; `seen` holds the names of templates on the way to
it and `remaining` tells how many ancestors it may have.
-/
def ancestorsFrom
    (library : Library)
    (registry : Document.FilterRegistry)
    (scope : Scope)
    (remaining : Nat)
    (seen : List String)
    (template : Template) : Except TemplateError (List Template) :=
  match template.parent with
  | none => .ok []
  | some chain => do
      let name := (← chain.eval registry scope).value.display
      if seen.contains name then
        .error (.malformed s!"template '{name}' extends itself")
      else
        match remaining with
        | 0 => .error (.malformed s!"inheritance deeper than {maxAncestors} templates")
        | remaining + 1 => do
            let parent ← loadChecked library registry name
            return parent ::
              (← ancestorsFrom library registry scope remaining (name :: seen) parent)

/-- The text of a template in which others may be nested to the given depth. -/
def renderWithin
    (library : Library)
    (registry : Document.FilterRegistry)
    (includes : Nat)
    (template : Template) : Rendering :=
  fun scope => do
    let include? : Option (String → Rendering) :=
      match includes with
      | 0 => none
      | includes + 1 => some fun name scope => do
          let template ← parse (← library.load name)
          renderWithin library registry includes template scope
    checkFilters registry template
    let ancestors ← ancestorsFrom library registry scope maxAncestors [] template
    renderLineage ⟨registry, include?⟩ (fun _ => none) template ancestors scope

/-- The text of a template source in a context. -/
def renderSource
    (library : Library)
    (registry : Document.FilterRegistry)
    (source : String)
    (context : Context) : Except TemplateError String := do
  renderWithin library registry maxIncludes (← parse source) context.scope

/-- The text of the template with a name in a context. -/
def renderNamed
    (library : Library)
    (registry : Document.FilterRegistry)
    (name : String)
    (context : Context) : Except TemplateError String := do
  renderSource library registry (← library.load name) context

end Template
end TemplatedMarkup
