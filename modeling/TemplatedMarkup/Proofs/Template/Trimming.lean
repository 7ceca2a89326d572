import TemplatedMarkup.Proofs.Table
import TemplatedMarkup.Proofs.Template.Filling
import TemplatedMarkup.Proofs.Template.KnownFilter
import TemplatedMarkup.Proofs.Template.Lineage

/-!
# What a template gives to its parent

Of a template with a parent only the blocks are shown.  Whatever stands outside of them may be
dropped, in the template, in its ancestors and in the templates that are included, and what could
be rendered is rendered as before.
-/

namespace TemplatedMarkup
namespace Template

/-! ## Dropping nodes -/

/-- Nodes of which some have been dropped, none of them with a block inside. -/
inductive Node.Trims : List Node → List Node → Prop
  /-- Nothing is left to drop. -/
  | nil : Trims [] []
  /-- A node is kept. -/
  | keep {node : Node} {nodes trimmed : List Node} :
      Trims nodes trimmed → Trims (node :: nodes) (node :: trimmed)
  /-- A node without blocks is dropped. -/
  | drop {node : Node} {nodes trimmed : List Node} :
      node.blocks = [] → Trims nodes trimmed → Trims (node :: nodes) trimmed

namespace Node.Trims

variable {nodes trimmed : List Node}

theorem refl (nodes : List Node) : Trims nodes nodes := by
  induction nodes with
  | nil => exact .nil
  | cons node nodes inductionHypothesis => exact .keep inductionHypothesis

theorem blocksOf_eq
    (trims : Trims nodes trimmed) :
    blocksOf trimmed = blocksOf nodes := by
  induction trims with
  | nil => rfl
  | keep _ inductionHypothesis => rw [blocksOf, blocksOf, inductionHypothesis]
  | drop noBlocks _ inductionHypothesis =>
      rw [inductionHypothesis, blocksOf, noBlocks, List.nil_append]

theorem knowsAll
    {registry : Document.FilterRegistry}
    (trims : Trims nodes trimmed)
    (known : KnowsAll registry (filterNamesOf nodes)) :
    KnowsAll registry (filterNamesOf trimmed) := by
  induction trims with
  | nil => exact known
  | keep _ inductionHypothesis =>
      obtain ⟨knownNode, knownNodes⟩ := knowsAll_append.mp known
      exact knowsAll_append.mpr ⟨knownNode, inductionHypothesis knownNodes⟩
  | drop _ _ inductionHypothesis => exact inductionHypothesis (knowsAll_append.mp known).2

end Node.Trims

/--
A template of which some nodes at the outermost level have been dropped, none of them with a block
inside; a template without a parent keeps all its nodes.
-/
structure Trims (template trimmed : Template) : Prop where
  /-- The parent stays. -/
  parent_eq : trimmed.parent = template.parent
  /-- The blocks stay. -/
  trimsNodes : Node.Trims template.nodes trimmed.nodes
  /-- Without a parent all nodes stay. -/
  nodes_eq : template.parent = none → trimmed.nodes = template.nodes

namespace Trims

variable {template trimmed : Template} {registry : Document.FilterRegistry}

theorem refl (template : Template) : Trims template template :=
  ⟨rfl, .refl _, fun _ => rfl⟩

theorem blocks_eq
    (trims : Trims template trimmed) :
    trimmed.blocks = template.blocks :=
  trims.trimsNodes.blocksOf_eq

/-- What is left of a template passes the check that the template passes. -/
theorem refines_checkFilters
    (trims : Trims template trimmed) :
    Refines (checkFilters registry template) (checkFilters registry trimmed) := by
  intro _ passes
  obtain ⟨knownParent, knownNodes⟩ := knowsAll_append.mp (checkFilters_eq_ok_iff.mp passes)
  have knownTrimmed := trims.trimsNodes.knowsAll knownNodes
  refine checkFilters_eq_ok_iff.mpr (knowsAll_append.mpr ⟨?_, knownTrimmed⟩)
  rwa [trims.parent_eq]

end Trims

/-- A library that has the same templates, or what is left of them, under the same names. -/
def Library.Trims (library trimmed : Library) : Prop :=
  ∀ {name source template}, library.load name = .ok source → parse source = .ok template →
    ∃ trimmedSource trimmedTemplate, trimmed.load name = .ok trimmedSource ∧
      parse trimmedSource = .ok trimmedTemplate ∧ template.Trims trimmedTemplate

/-- An added template is loaded under its name unless a file hides it. -/
theorem Library.load_add (library : Library) (name source other : String) :
    (library.add name source).load other =
      if other = name ∧ isRelativeName name = true ∧ library.file? name = none then .ok source
      else library.load other := by
  have sameFile : (library.add name source).file? other = library.file? other := rfl
  rw [load, load, sameFile, add, Table.get?_set]
  by_cases isName : other = name
  · subst isName
    cases isRelativeName other <;> cases library.file? other <;> simp
  · simp [isName]

/-- Nodes may be dropped from one template of a library. -/
theorem Library.trims_add
    {library : Library}
    {name source trimmedSource : String}
    {template trimmed : Template}
    (parsed : parse source = .ok template)
    (parsedTrimmed : parse trimmedSource = .ok trimmed)
    (trims : template.Trims trimmed) :
    (library.add name source).Trims (library.add name trimmedSource) := by
  intro other found foundTemplate loaded isTemplate
  rw [load_add] at loaded ⊢
  split at loaded
  · obtain rfl := Except.ok.inj loaded
    obtain rfl := Except.ok.inj (parsed.symm.trans isTemplate)
    rename_i isAdded
    exact ⟨trimmedSource, trimmed, if_pos isAdded, parsedTrimmed, trims⟩
  · rename_i isOther
    exact ⟨found, foundTemplate, (if_neg isOther).trans loaded, isTemplate, .refl _⟩

/-! ## Ancestors -/

section Ancestors

variable {library trimmedLibrary : Library} {registry : Document.FilterRegistry} {scope : Scope}
  {template trimmed : Template}

/-- What is left of a template is loaded in its place. -/
theorem Library.Trims.exists_loadChecked
    {name : String}
    (trimsLibrary : library.Trims trimmedLibrary)
    (loaded : loadChecked library registry name = .ok template) :
    ∃ trimmed, loadChecked trimmedLibrary registry name = .ok trimmed ∧
      template.Trims trimmed := by
  obtain ⟨source, found, parsed⟩ := exists_source_of_loadChecked loaded
  obtain ⟨trimmedSource, trimmed, foundTrimmed, parsedTrimmed, trims⟩ :=
    trimsLibrary found parsed
  have checked := checkFilters_eq_ok_iff.mpr (knowsAll_of_loadChecked loaded)
  exact ⟨trimmed,
    loadChecked_eq_ok foundTrimmed parsedTrimmed (trims.refines_checkFilters _ checked), trims⟩

/--
What is left of a template has ancestors under the same names.  The two chains have the same
blocks, and the nodes of their last templates are the same.
-/
theorem IsLineage.exists_trimmed
    {names : List String}
    {ancestors : List Template}
    (trimsLibrary : library.Trims trimmedLibrary)
    (trims : template.Trims trimmed)
    (lineage : IsLineage library registry scope template names ancestors) :
    ∃ trimmedAncestors,
      IsLineage trimmedLibrary registry scope trimmed names trimmedAncestors ∧
        (trimmed :: trimmedAncestors).flatMap blocks = (template :: ancestors).flatMap blocks ∧
        ((trimmed :: trimmedAncestors).getLast (List.cons_ne_nil _ _)).nodes =
          ((template :: ancestors).getLast (List.cons_ne_nil _ _)).nodes := by
  induction lineage generalizing trimmed with
  | root isRoot =>
      refine ⟨[], .root (trims.parent_eq.trans isRoot), ?_, trims.nodes_eq isRoot⟩
      simp [trims.blocks_eq]
  | derived isParent evaluated loaded _ inductionHypothesis =>
      obtain ⟨trimmedParent, loadedTrimmed, trimsParent⟩ := trimsLibrary.exists_loadChecked loaded
      obtain ⟨trimmedAncestors, lineage, sameBlocks, sameNodes⟩ :=
        inductionHypothesis trimsParent
      refine ⟨trimmedParent :: trimmedAncestors,
        .derived (trims.parent_eq.trans isParent) evaluated loadedTrimmed lineage, ?_, ?_⟩
      · rw [List.flatMap_cons, sameBlocks, trims.blocks_eq]
        rfl
      · rwa [List.getLast_cons_cons, List.getLast_cons_cons]

end Ancestors

/-! ## Rendering what is left -/

section Rendering

variable {library trimmedLibrary : Library} {registry : Document.FilterRegistry}

/-- Other templates that are shown are also shown in another way, with the same texts. -/
def RefinesIncluded (include? other? : Option (String → Rendering)) : Prop :=
  Option.Rel (fun shown other => ∀ name scope, Refines (shown name scope) (other name scope))
    include? other?

namespace Node

variable {include? other? : Option (String → Rendering)}

mutual

/-- A node outside of blocks is shown the same if other templates are. -/
theorem refines_render
    (refines : RefinesIncluded include? other?) :
    ∀ (node : Node) (scope : Scope),
      Refines (node.render ⟨registry, include?⟩ (fun _ => none) scope)
        (node.render ⟨registry, other?⟩ (fun _ => none) scope)
  | .text _, _ => .refl _
  | .variable _, _ => .refl _
  | .block _ body, scope => by
      rw [render, render]
      exact refines_renderAll refines body scope
  | .branch branches otherwise, scope => by
      have otherwiseRefines := refines_renderAll refines otherwise scope
      rw [render, render]
      rcases cases_of_optionRel (refines_renderBranch? refines branches scope) with
        ⟨shown, other, isShown, isOther, shownRefines⟩ | ⟨isShown, isOther⟩
      · rw [isShown, isOther]
        exact shownRefines
      · rw [isShown, isOther]
        exact otherwiseRefines
  | .loop header body empty, scope => by
      have bodyRefines := refines_renderAll refines body
      have emptyRefines := refines_renderAll refines empty scope
      rw [render, render]
      refine (Refines.refl _).bind fun sequence _ => (Refines.refl _).bind fun items _ => ?_
      split
      · exact emptyRefines
      · exact (Refines.mapM (fun _ => (Refines.refl _).bind fun inner _ => bodyRefines inner)
          _).bind fun _ _ => .refl _
  | .include chain, scope => by
      rw [render, render]
      rcases cases_of_optionRel refines with
        ⟨shown, other, isShown, isOther, shownRefines⟩ | ⟨isShown, isOther⟩
      · rw [isShown, isOther]
        exact (Refines.refl _).bind fun name _ => shownRefines _ scope
      · rw [isShown]
        exact .error _ _

/-- Nodes outside of blocks are shown the same if other templates are. -/
theorem refines_renderAll
    (refines : RefinesIncluded include? other?) :
    ∀ (nodes : List Node) (scope : Scope),
      Refines (renderAll ⟨registry, include?⟩ (fun _ => none) nodes scope)
        (renderAll ⟨registry, other?⟩ (fun _ => none) nodes scope)
  | [], _ => .refl _
  | node :: nodes, scope => by
      rw [renderAll, renderAll]
      exact (refines_render refines node scope).bind fun _ _ =>
        (refines_renderAll refines nodes scope).bind fun _ _ => .refl _

/-- Branches outside of blocks are shown the same if other templates are. -/
theorem refines_renderBranch?
    (refines : RefinesIncluded include? other?) :
    ∀ (branches : List (Expression.Expr × List Node)) (scope : Scope),
      Option.Rel Refines
        (renderBranch? ⟨registry, include?⟩ (fun _ => none) branches scope)
        (renderBranch? ⟨registry, other?⟩ (fun _ => none) branches scope)
  | [], _ => .none
  | (condition, body) :: branches, scope => by
      rw [renderBranch?, renderBranch?]
      split
      · exact .some (refines_renderAll refines body scope)
      · exact refines_renderBranch? refines branches scope

end

end Node

/-- What is left of a template is rendered as before if other templates are. -/
theorem refines_renderWithin_of_included
    {includes : Nat}
    {template trimmed : Template}
    (trimsLibrary : library.Trims trimmedLibrary)
    (refines : RefinesIncluded (includedWithin library registry includes)
      (includedWithin trimmedLibrary registry includes))
    (distinct : (template.blocks.map (·.1)).Nodup)
    (trims : template.Trims trimmed)
    (scope : Scope) :
    Refines (renderWithin library registry includes template scope)
      (renderWithin trimmedLibrary registry includes trimmed scope) := by
  intro text rendered
  obtain ⟨ancestors, checked, found, shown⟩ := exists_of_renderWithin_eq_ok rendered
  obtain ⟨names, lineage, isAllowed⟩ := ancestorsFrom_eq_ok_iff.mp found
  obtain ⟨trimmedAncestors, trimmedLineage, sameBlocks, sameNodes⟩ :=
    lineage.exists_trimmed trimsLibrary trims
  have foundTrimmed := ancestorsFrom_eq_ok_iff.mpr ⟨names, trimmedLineage, isAllowed⟩
  have distinctChain := lineage.hasDistinctBlocks distinct
  have distinctTrimmed := trimmedLineage.hasDistinctBlocks (trims.blocks_eq ▸ distinct)
  -- Both chains choose the same bodies, so their last templates are filled to the same nodes, and
  -- only the included templates differ.
  obtain ⟨filled, fills⟩ := exists_fills_of_mem distinctChain (List.getLast_mem _)
  have sameChoice : chosenBody? (trimmed :: trimmedAncestors) =
      chosenBody? (template :: ancestors) := by
    funext name
    rw [chosenBody?, chosenBody?, sameBlocks]
  have fillsTrimmed : Node.Fills (chosenBody? (trimmed :: trimmedAncestors))
      ((trimmed :: trimmedAncestors).getLast (List.cons_ne_nil _ _)).nodes filled := by
    rwa [sameChoice, sameNodes]
  rw [renderLineage_of_fills distinctChain fills] at shown
  rw [renderWithin_eq_renderLineage (trims.refines_checkFilters _ checked) foundTrimmed,
    renderLineage_of_fills distinctTrimmed fillsTrimmed]
  exact Node.refines_renderAll refines filled scope text shown

/-- What is left of other templates is shown as they are. -/
theorem refinesIncluded_includedWithin
    (trimsLibrary : library.Trims trimmedLibrary)
    (includes : Nat) :
    RefinesIncluded (includedWithin library registry includes)
      (includedWithin trimmedLibrary registry includes) := by
  induction includes with
  | zero => exact .none
  | succ includes inductionHypothesis =>
      refine .some fun name scope text shown => ?_
      obtain ⟨source, found, rest⟩ := exists_of_bind_eq_ok shown
      obtain ⟨included, parsed, rendered⟩ := exists_of_bind_eq_ok rest
      obtain ⟨trimmedSource, trimmed, foundTrimmed, parsedTrimmed, trims⟩ :=
        trimsLibrary found parsed
      simp only [foundTrimmed, parsedTrimmed, bind, Except.bind]
      exact refines_renderWithin_of_included trimsLibrary inductionHypothesis
        (nodup_blocks_of_parse parsed) trims scope text rendered

end Rendering

/--
A template that is rendered is shown by the blocks that its chain chooses, and by nothing else.

The text is that of the nodes of the last ancestor, in which every block, wherever it stands, has
been replaced by the body that the first template of the chain with a block of its name gives to
it, with its own blocks replaced likewise.  Where nodes without blocks are dropped from the
outermost level of the template or of any template of the library that has a parent, the text
stays.
-/
theorem renderWithin_shows_chosen_blocks
    {library : Library}
    {registry : Document.FilterRegistry}
    {includes : Nat}
    {source text : String}
    {template : Template}
    {scope : Scope}
    (parsed : parse source = .ok template)
    (rendered : renderWithin library registry includes template scope = .ok text) :
    (∃ names ancestors, IsLineage library registry scope template names ancestors ∧
      let chain := template :: ancestors
      let root := chain.getLast (List.cons_ne_nil _ _)
      (∃ filled, Node.Fills (chosenBody? chain) root.nodes filled) ∧
        ∀ filled, Node.Fills (chosenBody? chain) root.nodes filled →
          Node.blocksOf filled = [] ∧
            Node.renderAll ⟨registry, includedWithin library registry includes⟩ (fun _ => none)
              filled scope = .ok text) ∧
      ∀ (trimmedLibrary : Library) (trimmed : Template), library.Trims trimmedLibrary →
        template.Trims trimmed →
          renderWithin trimmedLibrary registry includes trimmed scope = .ok text := by
  have distinct := nodup_blocks_of_parse parsed
  refine ⟨?_, fun trimmedLibrary trimmed trimsLibrary trims => ?_⟩
  · obtain ⟨ancestors, -, found, shown⟩ := exists_of_renderWithin_eq_ok rendered
    obtain ⟨names, lineage, -⟩ := ancestorsFrom_eq_ok_iff.mp found
    have distinctChain := lineage.hasDistinctBlocks distinct
    refine ⟨names, ancestors, lineage,
      exists_fills_of_mem distinctChain (List.getLast_mem _), fun filled fills => ?_⟩
    rw [renderLineage_of_fills distinctChain fills] at shown
    exact ⟨fills.blocksOf_eq_nil, shown⟩
  · exact refines_renderWithin_of_included trimsLibrary
      (refinesIncluded_includedWithin trimsLibrary includes) distinct trims scope text rendered

set_option maxRecDepth 20000 in
/--
Three templates, of which the second nests a block in the block of the third and the first gives
that block its text; other text is dropped from the first two.
-/
theorem renderWithin_shows_chosen_blocks_nested :
    let outer := "\x7b%block a%\x7d\x7b%endblock%\x7d"
    let middle :=
      "\x7b%extends 'r'%\x7dx\x7b%block a%\x7d\x7b%block b%\x7d1\x7b%endblock%\x7d\x7b%endblock%\x7d"
    let trimmedMiddle :=
      "\x7b%extends 'r'%\x7d\x7b%block a%\x7d\x7b%block b%\x7d1\x7b%endblock%\x7d\x7b%endblock%\x7d"
    let source := "\x7b%extends 'm'%\x7dy\x7b%block b%\x7d2\x7b%endblock%\x7d"
    let library := (Library.empty.add "r" outer).add "m" middle
    let trimmedLibrary := (Library.empty.add "r" outer).add "m" trimmedMiddle
    let template : Template :=
      ⟨some ⟨.literal (.str "m"), []⟩, [.text "y", .block "b" [.text "2"]]⟩
    let trimmed : Template := ⟨some ⟨.literal (.str "m"), []⟩, [.block "b" [.text "2"]]⟩
    parse source = .ok template ∧
      renderWithin library .empty maxIncludes template (Context.scope .empty) = .ok "2" ∧
      library.Trims trimmedLibrary ∧ template.Trims trimmed ∧
      renderWithin trimmedLibrary .empty maxIncludes trimmed (Context.scope .empty) =
        .ok "2" := by
  intro outer middle trimmedMiddle source library trimmedLibrary template trimmed
  let root : Template := ⟨none, [.block "a" []]⟩
  let parent : Template := ⟨some ⟨.literal (.str "r"), []⟩,
    [.text "x", .block "a" [.block "b" [.text "1"]]]⟩
  let trimmedParent : Template := ⟨parent.parent, [.block "a" [.block "b" [.text "1"]]]⟩
  have parsed : parse source = .ok template := by cbv
  have parsedRoot : parse outer = .ok root := by cbv
  have parsedParent : parse middle = .ok parent := by cbv
  have parsedTrimmedParent : parse trimmedMiddle = .ok trimmedParent := by cbv
  have named (name : String) : FilterChain.eval .empty (Context.scope .empty)
      ⟨.literal (.str name), []⟩ = .ok ⟨.str name, true⟩ := rfl
  have loadedRoot : loadChecked library .empty "r" = .ok root :=
    loadChecked_eq_ok (show library.load "r" = .ok outer by decide) parsedRoot rfl
  have loadedParent : loadChecked library .empty "m" = .ok parent :=
    loadChecked_eq_ok (show library.load "m" = .ok middle by decide) parsedParent rfl
  have ancestors : ancestorsFrom library .empty (Context.scope .empty) maxAncestors [] template =
      .ok [parent, root] :=
    ancestorsFrom_eq_ok_iff.mpr ⟨["m", "r"], .derived rfl (named "m") loadedParent
      (.derived rfl (named "r") loadedRoot (.root rfl)), by simp [maxAncestors]⟩
  have rendered :
      renderWithin library .empty maxIncludes template (Context.scope .empty) = .ok "2" :=
    (renderWithin_eq_renderLineage rfl ancestors).trans rfl
  have trimsParent : parent.Trims trimmedParent :=
    ⟨rfl, .drop rfl (.refl _), fun isRoot => absurd isRoot (Option.some_ne_none _)⟩
  have trims : template.Trims trimmed :=
    ⟨rfl, .drop rfl (.refl _), fun isRoot => absurd isRoot (Option.some_ne_none _)⟩
  have trimsLibrary : library.Trims trimmedLibrary :=
    Library.trims_add parsedParent parsedTrimmedParent trimsParent
  exact ⟨parsed, rendered, trimsLibrary, trims,
    (renderWithin_shows_chosen_blocks parsed rendered).2 trimmedLibrary trimmed trimsLibrary trims⟩

end Template
end TemplatedMarkup
