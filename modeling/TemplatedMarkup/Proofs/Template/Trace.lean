import TemplatedMarkup.Proofs.Template.KnownFilter
import TemplatedMarkup.Proofs.Template.Lineage

/-!
# Values that rendering asks for

Here a template is rendered with a trace of the filter chains whose values are asked for.  Apart
from the trace this is rendering as it is, and every chain in the trace has passed the check of the
template that it comes from.
-/

namespace TemplatedMarkup
namespace Template

open TemplateError (IsOrdinary)

/-- The outcome of a computation, with the filter chains whose values it has asked for. -/
structure Traced (Value : Type) where
  /-- The chains, in the order in which their values were asked for. -/
  evaluated : List FilterChain
  /-- The outcome. -/
  outcome : Except TemplateError Value

namespace Traced

/-- A computation that asks for no values of chains. -/
def untraced {Value : Type} (outcome : Except TemplateError Value) : Traced Value :=
  ⟨[], outcome⟩

instance : Monad Traced where
  pure value := untraced (.ok value)
  bind first next :=
    match first.outcome with
    | .error cause => ⟨first.evaluated, .error cause⟩
    | .ok value => ⟨first.evaluated ++ (next value).evaluated, (next value).outcome⟩

/-- An empty trace adds nothing, and it does not matter how traces are grouped. -/
instance : LawfulMonad Traced := by
  refine LawfulMonad.mk' Traced (fun traced => ?_) (fun _ _ => rfl) (fun traced next more => ?_)
  · obtain ⟨evaluated, outcome⟩ := traced
    cases outcome <;> simp [Functor.map, untraced]
  · obtain ⟨evaluated, outcome⟩ := traced
    cases outcome with
    | error cause => rfl
    | ok value =>
        simp only [bind]
        cases (next value).outcome <;> simp

end Traced

/-- Ask for the value of a chain. -/
def FilterChain.trace
    (registry : Document.FilterRegistry)
    (scope : Scope)
    (chain : FilterChain) : Traced Marked :=
  ⟨[chain], chain.eval registry scope⟩

/-- The text of something in a scope, with the chains that it asks for. -/
abbrev TracedRendering := Scope → Traced String

/-- How the blocks with some names are shown. -/
abbrev TracedOverrides := String → Option TracedRendering

/-- What nodes refer to besides the scope. -/
structure TracedSurroundings where
  /-- The filters of documents. -/
  registry : Document.FilterRegistry
  /-- How another template is shown, unless it would be nested too deep. -/
  include? : Option (String → TracedRendering)

/-! ## Rendering with a trace -/

/-- Show a body for every item of a loop. -/
def traceItems
    (targets : List String)
    (items : List Value)
    (body : TracedRendering) : TracedRendering :=
  fun scope => do
    let length := items.length
    let texts ← items.zipIdx.mapM fun (item, position) => do
      body (← .untraced (loopScope targets length scope item position))
    return String.join texts

namespace Node

mutual

/-- The text of a node. -/
def trace (surroundings : TracedSurroundings) (overrides : TracedOverrides) :
    Node → TracedRendering
  | .text content, _ => return content
  | .variable chain, scope => do
      return (← chain.trace surroundings.registry scope).text
  | .block name body, scope =>
      match overrides name with
      | some shown => shown scope
      | none => traceAll surroundings overrides body scope
  | .branch branches otherwise, scope =>
      match traceBranch? surroundings overrides branches scope with
      | some shown => shown
      | none => traceAll surroundings overrides otherwise scope
  | .loop header body empty, scope => do
      let sequence ← header.iterable.trace surroundings.registry scope
      let items ← .untraced (loopItems sequence.value header.reversed)
      if items.isEmpty then
        traceAll surroundings overrides empty scope
      else
        traceItems header.targets items (traceAll surroundings overrides body) scope
  | .include chain, scope =>
      match surroundings.include? with
      | none => .untraced (.error includesTooDeep)
      | some shown => do
          let name ← chain.trace surroundings.registry scope
          shown name.value.display scope

/-- The text of nodes, one behind the other. -/
def traceAll (surroundings : TracedSurroundings) (overrides : TracedOverrides) :
    List Node → TracedRendering
  | [], _ => return ""
  | node :: nodes, scope => do
      let text ← node.trace surroundings overrides scope
      return text ++ (← traceAll surroundings overrides nodes scope)

/-- The text of the body behind the first condition that holds. -/
def traceBranch? (surroundings : TracedSurroundings) (overrides : TracedOverrides) :
    List (Expression.Expr × List Node) → Scope → Option (Traced String)
  | [], _ => none
  | (condition, body) :: branches, scope =>
      if holds condition scope then some (traceAll surroundings overrides body scope)
      else traceBranch? surroundings overrides branches scope

end

end Node

/-- How blocks are shown in front of the parent of a template. -/
def tracedOverrides
    (template : Template)
    (surroundings : TracedSurroundings)
    (overrides : TracedOverrides) : TracedOverrides :=
  fun name =>
    (overrides name).or
      ((template.blocks.lookup name).map (Node.traceAll surroundings overrides))

/-- The text of the last of a template and its ancestors, given what is in front of the first. -/
def traceLineage
    (surroundings : TracedSurroundings)
    (overrides : TracedOverrides)
    (template : Template) : List Template → TracedRendering
  | [] => Node.traceAll surroundings overrides template.nodes
  | parent :: ancestors =>
      traceLineage surroundings (template.tracedOverrides surroundings overrides) parent ancestors

/-- The ancestors of a template, from its parent on. -/
def traceAncestors
    (library : Library)
    (registry : Document.FilterRegistry)
    (scope : Scope)
    (remaining : Nat)
    (seen : List String)
    (template : Template) : Traced (List Template) :=
  match template.parent with
  | none => return []
  | some chain => do
      let name := (← chain.trace registry scope).value.display
      if seen.contains name then
        .untraced (.error (.malformed s!"template '{name}' extends itself"))
      else
        match remaining with
        | 0 => .untraced (.error (.malformed s!"inheritance deeper than {maxAncestors} templates"))
        | remaining + 1 => do
            let parent ← .untraced (loadChecked library registry name)
            return parent ::
              (← traceAncestors library registry scope remaining (name :: seen) parent)

/-- The text of a template, given how others are shown in it. -/
def traceWith
    (library : Library)
    (registry : Document.FilterRegistry)
    (include? : Option (String → TracedRendering))
    (template : Template) : TracedRendering :=
  fun scope => do
    .untraced (checkFilters registry template)
    let ancestors ← traceAncestors library registry scope maxAncestors [] template
    traceLineage ⟨registry, include?⟩ (fun _ => none) template ancestors scope

/-- How templates are shown in others that may nest so many. -/
def traceIncluded
    (library : Library)
    (registry : Document.FilterRegistry) : Nat → Option (String → TracedRendering)
  | 0 => none
  | includes + 1 => some fun name scope => do
      let source ← .untraced (library.load name)
      let included ← .untraced (parse source)
      traceWith library registry (traceIncluded library registry includes) included scope

/-- The text of a template source in a context. -/
def traceSource
    (library : Library)
    (registry : Document.FilterRegistry)
    (source : String)
    (context : Context) : Traced String := do
  let template ← .untraced (parse source)
  traceWith library registry (traceIncluded library registry maxIncludes) template context.scope

/-! ## Traces of known filters -/

/-- A computation with a trace has the outcome of one without, and asks for known filters only. -/
structure Traced.Follows
    {Value : Type}
    (registry : Document.FilterRegistry)
    (traced : Traced Value)
    (outcome : Except TemplateError Value) : Prop where
  /-- The outcome is the same. -/
  same : traced.outcome = outcome
  /-- The filters of all chains in the trace exist. -/
  known : ∀ chain ∈ traced.evaluated, KnowsAll registry chain.filterNames
  /-- No value has reached a filter that does not exist. -/
  ordinary : FailsWith IsOrdinary outcome

/-- A rendering with a trace does so in every scope. -/
def FollowsRendering
    (registry : Document.FilterRegistry)
    (traced : TracedRendering)
    (shown : Rendering) : Prop :=
  ∀ scope, (traced scope).Follows registry (shown scope)

namespace Traced.Follows

variable {Value Result : Type} {registry : Document.FilterRegistry}

theorem untraced
    {outcome : Except TemplateError Value}
    (ordinary : FailsWith IsOrdinary outcome) :
    (Traced.untraced outcome).Follows registry outcome where
  same := rfl
  known := fun _ among => nomatch among
  ordinary := ordinary

theorem pure (value : Value) :
    (Pure.pure value : Traced Value).Follows registry (Pure.pure value) :=
  untraced (.ok value)

/-- Two steps with a trace follow two steps without. -/
theorem bind
    {first : Traced Value}
    {plain : Except TemplateError Value}
    {next : Value → Traced Result}
    {plainNext : Value → Except TemplateError Result}
    (follows : first.Follows registry plain)
    (nextFollows : ∀ value, plain = .ok value →
      (next value).Follows registry (plainNext value)) :
    (first >>= next).Follows registry (plain >>= plainNext) := by
  obtain ⟨evaluated, outcome⟩ := first
  obtain ⟨rfl, known, ordinary⟩ := follows
  cases outcome with
  | error cause => exact ⟨rfl, known, .error (ordinary cause rfl)⟩
  | ok value =>
      obtain ⟨same, knownNext, ordinaryNext⟩ := nextFollows value rfl
      exact ⟨same, List.forall_mem_append.mpr ⟨known, knownNext⟩, ordinaryNext⟩

theorem mapM
    {Item : Type}
    {step : Item → Traced Value}
    {plainStep : Item → Except TemplateError Value}
    (items : List Item)
    (follows : ∀ item, (step item).Follows registry (plainStep item)) :
    (items.mapM step).Follows registry (items.mapM plainStep) := by
  induction items with
  | nil => exact .pure []
  | cons item items inductionHypothesis =>
      rw [List.mapM_cons, List.mapM_cons]
      exact (follows item).bind fun _ _ => inductionHypothesis.bind fun _ _ => .pure _

end Traced.Follows

section Rendering

variable {library : Library} {registry : Document.FilterRegistry}

/-- A chain of filters that exist is evaluated as it is. -/
theorem FilterChain.follows_trace
    {chain : FilterChain}
    (known : KnowsAll registry chain.filterNames)
    (scope : Scope) :
    (chain.trace registry scope).Follows registry (chain.eval registry scope) :=
  ⟨rfl, List.forall_mem_singleton.mpr known, failsWith_eval known⟩

/-- The items of a loop are shown in order. -/
theorem follows_traceItems
    {body : TracedRendering}
    {shown : Rendering}
    (follows : FollowsRendering registry body shown)
    (targets : List String)
    (items : List Value) :
    FollowsRendering registry (traceItems targets items body) (renderItems targets items shown) :=
  fun _ => (Traced.Follows.mapM _ fun (item, position) =>
      (Traced.Follows.untraced (failsWith_loopScope targets _ item position)).bind fun inner _ =>
        follows inner).bind fun _ _ => .pure _

/-! ## Nodes -/

section Nodes

variable {surroundings : TracedSurroundings} {plain : Surroundings}
  {overrides : TracedOverrides} {plainOverrides : Overrides}

/-- Other templates with a trace follow other templates without. -/
def FollowsIncluded
    (registry : Document.FilterRegistry)
    (include? : Option (String → TracedRendering))
    (plain? : Option (String → Rendering)) : Prop :=
  Option.Rel (fun traced shown => ∀ name, FollowsRendering registry (traced name) (shown name))
    include? plain?

/-- What nodes refer to with a trace follows what they refer to without. -/
structure TracedSurroundings.Follows
    (surroundings : TracedSurroundings)
    (plain : Surroundings) : Prop where
  /-- The filters of documents are the same. -/
  registry_eq : surroundings.registry = plain.registry
  /-- Other templates are shown in the same way. -/
  included : FollowsIncluded plain.registry surroundings.include? plain.include?

/-- Blocks with a trace follow blocks without. -/
def FollowsOverrides
    (registry : Document.FilterRegistry)
    (overrides : TracedOverrides)
    (plain : Overrides) : Prop :=
  ∀ name, Option.Rel (FollowsRendering registry) (overrides name) (plain name)

namespace Node

mutual

/-- A node of known filters is shown as it is. -/
theorem follows_trace
    (follows : surroundings.Follows plain)
    (followsOverrides : FollowsOverrides plain.registry overrides plainOverrides) :
    ∀ (node : Node), KnowsAll plain.registry node.filterNames →
      FollowsRendering plain.registry (node.trace surroundings overrides)
        (node.render plain plainOverrides)
  | .text _, _, _ => .pure _
  | .variable chain, known, scope => by
      rw [trace, render, follows.registry_eq]
      exact (FilterChain.follows_trace known scope).bind fun _ _ => .pure _
  | .block name body, known, scope => by
      have inPlace := follows_traceAll follows followsOverrides body known scope
      rw [trace, render]
      rcases cases_of_optionRel (followsOverrides name) with
        ⟨traced, shown, isTraced, isShown, followsShown⟩ | ⟨isTraced, isShown⟩
      · rw [isTraced, isShown]
        exact followsShown scope
      · rw [isTraced, isShown]
        exact inPlace
  | .branch branches otherwise, known, scope => by
      obtain ⟨knownBranches, knownOtherwise⟩ := knowsAll_append.mp known
      have followsOtherwise :=
        follows_traceAll follows followsOverrides otherwise knownOtherwise scope
      rw [trace, render]
      rcases cases_of_optionRel
          (follows_traceBranch? follows followsOverrides branches knownBranches scope) with
        ⟨traced, shown, isTraced, isShown, followsShown⟩ | ⟨isTraced, isShown⟩
      · rw [isTraced, isShown]
        exact followsShown
      · rw [isTraced, isShown]
        exact followsOtherwise
  | .loop header body empty, known, scope => by
      rw [filterNames, List.append_assoc, knowsAll_append, knowsAll_append] at known
      obtain ⟨knownHeader, knownBody, knownEmpty⟩ := known
      have followsBody := follows_traceAll follows followsOverrides body knownBody
      have followsEmpty := follows_traceAll follows followsOverrides empty knownEmpty scope
      rw [trace, render, follows.registry_eq]
      refine (FilterChain.follows_trace knownHeader scope).bind fun sequence _ => ?_
      refine (Traced.Follows.untraced (failsWith_loopItems _ _)).bind fun items _ => ?_
      split
      · exact followsEmpty
      · exact follows_traceItems followsBody header.targets items scope
  | .include chain, known, scope => by
      rw [trace, render, follows.registry_eq]
      rcases cases_of_optionRel follows.included with
        ⟨traced, shown, isTraced, isShown, followsShown⟩ | ⟨isTraced, isShown⟩
      · rw [isTraced, isShown]
        exact (FilterChain.follows_trace known scope).bind fun name _ => followsShown _ scope
      · rw [isTraced, isShown]
        exact .untraced (.error (isOrdinary_evaluation _))

/-- Nodes of known filters are shown as they are. -/
theorem follows_traceAll
    (follows : surroundings.Follows plain)
    (followsOverrides : FollowsOverrides plain.registry overrides plainOverrides) :
    ∀ (nodes : List Node), KnowsAll plain.registry (filterNamesOf nodes) →
      FollowsRendering plain.registry (traceAll surroundings overrides nodes)
        (renderAll plain plainOverrides nodes)
  | [], _, _ => .pure _
  | node :: nodes, known, scope => by
      obtain ⟨knownNode, knownNodes⟩ := knowsAll_append.mp known
      rw [traceAll, renderAll]
      exact (follows_trace follows followsOverrides node knownNode scope).bind fun _ _ =>
        (follows_traceAll follows followsOverrides nodes knownNodes scope).bind fun _ _ => .pure _

/-- Branches of known filters are shown as they are. -/
theorem follows_traceBranch?
    (follows : surroundings.Follows plain)
    (followsOverrides : FollowsOverrides plain.registry overrides plainOverrides) :
    ∀ (branches : List (Expression.Expr × List Node)),
      KnowsAll plain.registry (filterNamesOfBranches branches) → ∀ scope,
        Option.Rel (Traced.Follows plain.registry)
          (traceBranch? surroundings overrides branches scope)
          (renderBranch? plain plainOverrides branches scope)
  | [], _, _ => .none
  | (condition, body) :: branches, known, scope => by
      obtain ⟨knownBody, knownBranches⟩ := knowsAll_append.mp known
      rw [traceBranch?, renderBranch?]
      split
      · exact .some (follows_traceAll follows followsOverrides body knownBody scope)
      · exact follows_traceBranch? follows followsOverrides branches knownBranches scope

end

end Node

end Nodes

/-! ## Templates -/

section Templates

variable {surroundings : TracedSurroundings} {plain : Surroundings} {template : Template}

/-- The blocks of a template of known filters are shown as they are. -/
theorem follows_tracedOverrides
    {overrides : TracedOverrides}
    {plainOverrides : Overrides}
    (follows : surroundings.Follows plain)
    (followsOverrides : FollowsOverrides plain.registry overrides plainOverrides)
    (known : KnowsAll plain.registry template.filterNames) :
    FollowsOverrides plain.registry (template.tracedOverrides surroundings overrides)
      (template.overrides plain plainOverrides) := by
  intro name
  rw [tracedOverrides, Template.overrides]
  rcases cases_of_optionRel (followsOverrides name) with
    ⟨traced, shown, isTraced, isShown, followsShown⟩ | ⟨isTraced, isShown⟩
  · rw [isTraced, isShown]
    exact .some followsShown
  · rw [isTraced, isShown]
    cases own : template.blocks.lookup name with
    | none => exact .none
    | some body =>
        have knownBody : KnowsAll plain.registry (Node.filterNamesOf body) :=
          known.nodes.mono
            (Node.filterNamesOf_subset_of_mem (mem_of_lookup_eq_some own))
        exact .some (Node.follows_traceAll follows followsOverrides body knownBody)

/-- A chain of templates of known filters is shown as it is. -/
theorem follows_traceLineage
    {overrides : TracedOverrides}
    {plainOverrides : Overrides}
    {ancestors : List Template}
    (follows : surroundings.Follows plain)
    (followsOverrides : FollowsOverrides plain.registry overrides plainOverrides)
    (known : ∀ member ∈ template :: ancestors, KnowsAll plain.registry member.filterNames) :
    FollowsRendering plain.registry (traceLineage surroundings overrides template ancestors)
      (renderLineage plain plainOverrides template ancestors) := by
  induction ancestors generalizing template overrides plainOverrides with
  | nil =>
      exact Node.follows_traceAll follows followsOverrides template.nodes
        (known template List.mem_cons_self).nodes
  | cons parent ancestors inductionHypothesis =>
      rw [List.forall_mem_cons] at known
      exact inductionHypothesis (follows_tracedOverrides follows followsOverrides known.1) known.2

/-- All ancestors that are found have passed the check. -/
theorem IsLineage.knowsAll
    {scope : Scope}
    {names : List String}
    {ancestors : List Template}
    (lineage : IsLineage library registry scope template names ancestors) :
    ∀ ancestor ∈ ancestors, KnowsAll registry ancestor.filterNames := by
  induction lineage with
  | root => exact fun _ among => nomatch among
  | derived _ _ loaded _ inductionHypothesis =>
      exact List.forall_mem_cons.mpr ⟨knowsAll_of_loadChecked loaded, inductionHypothesis⟩

/-- The ancestors of a template of known filters are found as they are. -/
theorem follows_traceAncestors
    {scope : Scope}
    {remaining : Nat}
    {seen : List String}
    (known : KnowsAll registry template.filterNames) :
    (traceAncestors library registry scope remaining seen template).Follows registry
      (ancestorsFrom library registry scope remaining seen template) := by
  have refused : ∀ message, (TemplateError.malformed message).IsOrdinary := fun _ =>
    TemplateError.IsMalformed.isOrdinary ⟨_, rfl⟩
  induction remaining generalizing seen template with
  | zero =>
      rw [traceAncestors, ancestorsFrom]
      cases derived : template.parent with
      | none => exact .pure []
      | some chain =>
          refine (FilterChain.follows_trace (known.parent derived) scope).bind
            fun marked _ => ?_
          simp only
          split <;> exact .untraced (.error (refused _))
  | succ remaining inductionHypothesis =>
      rw [traceAncestors, ancestorsFrom]
      cases derived : template.parent with
      | none => exact .pure []
      | some chain =>
          refine (FilterChain.follows_trace (known.parent derived) scope).bind
            fun marked _ => ?_
          simp only
          split
          · exact .untraced (.error (refused _))
          · refine (Traced.Follows.untraced (failsWith_loadChecked library _)).bind
              fun parent loaded => ?_
            exact (inductionHypothesis (knowsAll_of_loadChecked loaded)).bind fun _ _ => .pure _

/-- A template is shown as it is once it has passed the check. -/
theorem follows_traceWith
    {include? : Option (String → TracedRendering)}
    {includes : Nat}
    (follows : FollowsIncluded registry include? (includedWithin library registry includes)) :
    FollowsRendering registry (traceWith library registry include? template)
      (renderWithin library registry includes template) := by
  intro scope
  rw [renderWithin_eq]
  refine (Traced.Follows.untraced (failsWith_checkFilters template)).bind fun _ checked => ?_
  -- The check covers the template and, as they are loaded, its ancestors: all of the chain.
  have known := checkFilters_eq_ok_iff.mp checked
  refine (follows_traceAncestors known).bind fun ancestors found => ?_
  obtain ⟨names, lineage, -⟩ := ancestorsFrom_eq_ok_iff.mp found
  have knownChain : ∀ member ∈ template :: ancestors, KnowsAll registry member.filterNames :=
    List.forall_mem_cons.mpr ⟨known, lineage.knowsAll⟩
  have surroundings : TracedSurroundings.Follows ⟨registry, include?⟩
      ⟨registry, includedWithin library registry includes⟩ := ⟨rfl, follows⟩
  exact follows_traceLineage surroundings (fun _ => .none) knownChain scope

/-- Other templates are shown as they are. -/
theorem follows_traceIncluded (includes : Nat) :
    FollowsIncluded registry (traceIncluded library registry includes)
      (includedWithin library registry includes) := by
  induction includes with
  | zero => exact .none
  | succ includes inductionHypothesis =>
      refine .some fun name scope => ?_
      refine (Traced.Follows.untraced (failsWith_load library name)).bind fun source _ => ?_
      refine (Traced.Follows.untraced (failsWith_parse_ordinary source)).bind
        fun included _ => ?_
      exact follows_traceWith inductionHypothesis scope

end Templates

end Rendering

/--
Whatever a rendering asks for passes through known filters.  The rendering with a trace has the
outcome of the rendering; every filter of every chain in the trace, from the source, from its
ancestors, from blocks of either and from templates included anywhere, is built in or registered;
and no value has reached a filter that does not exist.
-/
theorem traceSource_known
    (library : Library)
    (registry : Document.FilterRegistry)
    (source : String)
    (context : Context) :
    let traced := traceSource library registry source context
    traced.outcome = renderSource library registry source context ∧
      (∀ chain ∈ traced.evaluated, ∀ name ∈ chain.filterNames,
        isKnownFilter registry name = true) ∧
      ∀ name, renderSource library registry source context ≠ .error (.unknownFilter name) := by
  have follows : (traceSource library registry source context).Follows registry
      (renderSource library registry source context) :=
    (Traced.Follows.untraced (failsWith_parse_ordinary source)).bind fun _ _ =>
      follows_traceWith (follows_traceIncluded maxIncludes) context.scope
  exact ⟨follows.same, follows.known, fun name fails => follows.ordinary _ fails name rfl⟩

end Template
end TemplatedMarkup
