import TemplatedMarkup.Proofs.Template.Lineage

/-!
# Rendering comes to an end

Here a template is rendered step by step: parents are looked for one after the other, every block
is looked up in one table of the chain, and included templates are rendered in their place.  None
of these steps has an end of its own, so each of them is stopped at a bound.  Bounds that depend on
the library and the source alone are never reached, and the text is that of the template.
-/

namespace TemplatedMarkup
namespace Template

variable {library : Library} {registry : Document.FilterRegistry} {scope : Scope}

/-! ## Looking for parents -/

/-- Look for parents until a template has none; `chain` holds what has been found. -/
def searchParents
    (library : Library)
    (registry : Document.FilterRegistry)
    (scope : Scope)
    (cut : TemplateError)
    (rounds : Nat)
    (seen : List String)
    (chain : List Template) : Except TemplateError (List Template) :=
  match chain.getLast?.bind parent with
  | none => .ok chain
  | some expression =>
      match rounds with
      | 0 => .error cut
      | rounds + 1 => do
          let name := (← expression.eval registry scope).value.display
          if seen.contains name then
            .error (.malformed s!"template '{name}' extends itself")
          else if maxAncestors < chain.length then
            .error (.malformed s!"inheritance deeper than {maxAncestors} templates")
          else
            let parent ← loadChecked library registry name
            searchParents library registry scope cut rounds (name :: seen) (chain ++ [parent])

section Search

variable {cut : TemplateError} {seen : List String} {front : List Template} {template : Template}

theorem searchParents_of_root
    {rounds : Nat}
    (isRoot : template.parent = none) :
    searchParents library registry scope cut rounds seen (front ++ [template]) =
      .ok (front ++ [template]) := by
  rw [searchParents.eq_def, List.getLast?_concat, Option.bind_some, isRoot]

theorem searchParents_succ_of_parent
    {rounds : Nat}
    {chain : FilterChain}
    (derived : template.parent = some chain) :
    searchParents library registry scope cut (rounds + 1) seen (front ++ [template]) = (do
      let name := (← chain.eval registry scope).value.display
      if seen.contains name then
        .error (.malformed s!"template '{name}' extends itself")
      else if maxAncestors < (front ++ [template]).length then
        .error (.malformed s!"inheritance deeper than {maxAncestors} templates")
      else
        let parent ← loadChecked library registry name
        searchParents library registry scope cut rounds (name :: seen)
          (front ++ [template] ++ [parent])) := by
  rw [searchParents, List.getLast?_concat, Option.bind_some, derived]

/-- The search for parents ends after as many rounds as there may be ancestors, and one more. -/
theorem searchParents_eq_map
    {rounds remaining : Nat}
    (spare : front.length + remaining = maxAncestors)
    (enough : remaining < rounds) :
    searchParents library registry scope cut rounds seen (front ++ [template]) =
      (ancestorsFrom library registry scope remaining seen template).map
        (front ++ template :: ·) := by
  induction remaining generalizing rounds seen front template with
  | zero =>
      obtain ⟨rounds, rfl⟩ := Nat.exists_eq_succ_of_ne_zero (Nat.ne_of_gt enough)
      cases derived : template.parent with
      | none =>
          rw [searchParents_of_root derived, ancestorsFrom_of_root derived]
          rfl
      | some chain =>
          rw [searchParents_succ_of_parent derived, ancestorsFrom_zero_of_parent derived]
          cases chain.eval registry scope with
          | error cause => rfl
          | ok marked =>
              have tooLong : maxAncestors < (front ++ [template]).length := by
                rw [List.length_append, List.length_singleton]
                omega
              simp only [bind, Except.bind, if_pos tooLong]
              split <;> rfl
  | succ remaining inductionHypothesis =>
      obtain ⟨rounds, rfl⟩ :=
        Nat.exists_eq_succ_of_ne_zero (Nat.ne_of_gt (Nat.zero_lt_of_lt enough))
      cases derived : template.parent with
      | none =>
          rw [searchParents_of_root derived, ancestorsFrom_of_root derived]
          rfl
      | some chain =>
          rw [searchParents_succ_of_parent derived, ancestorsFrom_succ_of_parent derived]
          cases chain.eval registry scope with
          | error cause => rfl
          | ok marked =>
              have notTooLong : ¬maxAncestors < (front ++ [template]).length := by
                rw [List.length_append, List.length_singleton]
                omega
              simp only [bind, Except.bind, if_neg notTooLong]
              split
              · rfl
              · cases loadChecked library registry marked.value.display with
                | error cause => rfl
                | ok parent =>
                    simp only
                    rw [inductionHypothesis (by simp; omega) (by omega)]
                    cases ancestorsFrom library registry scope remaining
                        (marked.value.display :: seen) parent <;>
                      simp [Except.map, pure, Except.pure]

end Search

/-! ## Bounded rendering -/

/-- How much is done in a row or may be open at a time. -/
structure Bounds where
  /-- How many parents are looked for. -/
  rounds : Nat
  /-- How many templates may be open, each included by the one before. -/
  templates : Nat
  /-- How many blocks may be open, each inside the one before. -/
  blocks : Nat

/--
The text of a template that `depth` others are around, when only so many templates may be open;
beyond a bound there is the error `cut`.
-/
def renderBounded
    (library : Library)
    (registry : Document.FilterRegistry)
    (cut : TemplateError)
    (bounds : Bounds) : Nat → Nat → Template → Rendering
  | 0, _, _, _ => .error cut
  | templates + 1, depth, template, scope => do
      let include? : Option (String → Rendering) :=
        if depth < maxIncludes then some fun name scope => do
          let included ← parse (← library.load name)
          renderBounded library registry cut bounds templates (depth + 1) included scope
        else none
      checkFilters registry template
      let chain ← searchParents library registry scope cut bounds.rounds [] [template]
      let surroundings : Surroundings := ⟨registry, include?⟩
      Node.renderAll surroundings
        (tableOverrides surroundings (chosenBody? chain) cut bounds.blocks)
        (chain.getLast?.elim [] nodes) scope

/-! ## Sizes -/

/-- The templates that a library can load have at most so many blocks. -/
def BlocksAtMost (library : Library) (size : Nat) : Prop :=
  ∀ {name source template}, library.load name = .ok source → parse source = .ok template →
    template.blocks.length ≤ size

/-- Some number bounds the blocks of finitely many sources. -/
theorem exists_blocks_le (sources : List String) :
    ∃ size, ∀ source ∈ sources, ∀ template, parse source = .ok template →
      template.blocks.length ≤ size := by
  induction sources with
  | nil => exact ⟨0, by simp⟩
  | cons source sources inductionHypothesis =>
      obtain ⟨size, bounds⟩ := inductionHypothesis
      cases parsed : parse source with
      | error cause =>
          refine ⟨size, List.forall_mem_cons.mpr ⟨fun template isTemplate => ?_, bounds⟩⟩
          rw [parsed] at isTemplate
          contradiction
      | ok first =>
          refine ⟨max first.blocks.length size, List.forall_mem_cons.mpr ⟨?_, ?_⟩⟩
          · intro template isTemplate
            obtain rfl := Except.ok.inj (parsed.symm.trans isTemplate)
            exact Nat.le_max_left _ _
          · intro other among template isTemplate
            exact (bounds other among template isTemplate).trans (Nat.le_max_right _ _)

/-- What is under a name in a table is one of its entries. -/
theorem mem_map_of_get?
    {Entry : Type}
    {table : Table Entry}
    {name : String}
    {entry : Entry}
    (found : table.get? name = some entry) :
    entry ∈ table.entries.map (·.2) := by
  obtain ⟨front, behind, split, -⟩ := List.lookup_eq_some_iff.mp found
  simp [split]

/-- What a library can load has a bound for its blocks. -/
theorem exists_blocksAtMost (library : Library) :
    ∃ size, BlocksAtMost library size := by
  obtain ⟨size, bounds⟩ := exists_blocks_le
    (library.files.entries.map (·.2) ++ library.added.entries.map (·.2) ++
      bundled.entries.map (·.2))
  refine ⟨size, fun {name source template} loaded parsed => bounds source ?_ template parsed⟩
  unfold Library.load at loaded
  split at loaded
  · split at loaded
    · rename_i text found
      obtain rfl := Except.ok.inj loaded
      rw [List.append_assoc, List.mem_append, List.mem_append]
      rcases Option.or_eq_some_iff.mp found with known | ⟨-, isBundled⟩
      · rcases Option.or_eq_some_iff.mp known with isFile | ⟨-, isAdded⟩
        · unfold Library.file? at isFile
          split at isFile
          · exact .inl (mem_map_of_get? isFile)
          · contradiction
        · exact .inr (.inl (mem_map_of_get? isAdded))
      · exact .inr (.inr (mem_map_of_get? isBundled))
    · contradiction
  · contradiction

/-! ## Bounds that are not reached -/

section Bounded

variable {template : Template} {cut : TemplateError} {bounds : Bounds} {size : Nat}

/-- The blocks of a chain have different names in each template, and there are not too many. -/
theorem IsLineage.blocks_le
    {names : List String}
    {ancestors : List Template}
    (bounded : BlocksAtMost library size)
    (distinct : (template.blocks.map (·.1)).Nodup)
    (lineage : IsLineage library registry scope template names ancestors) :
    HasDistinctBlocks (template :: ancestors) ∧
      ((template :: ancestors).flatMap blocks).length ≤
        template.blocks.length + names.length * size := by
  refine ⟨lineage.hasDistinctBlocks distinct, ?_⟩
  clear distinct
  induction lineage with
  | root => simp
  | derived _ _ loaded _ inductionHypothesis =>
      obtain ⟨source, found, parsed⟩ := exists_source_of_loadChecked loaded
      have parentFew := bounded found parsed
      rw [List.flatMap_cons, List.length_append, List.length_cons, Nat.succ_mul]
      omega

/-- Bounds that allow for the blocks of the largest chain are not reached. -/
theorem renderBounded_eq
    {includes templates depth : Nat}
    (bounded : BlocksAtMost library size)
    (rounds : maxAncestors < bounds.rounds)
    (spare : depth + includes = maxIncludes)
    (enough : includes < templates)
    (distinct : (template.blocks.map (·.1)).Nodup)
    (few : template.blocks.length + maxAncestors * size ≤ bounds.blocks)
    (fewIncluded : size + maxAncestors * size ≤ bounds.blocks) :
    renderBounded library registry cut bounds templates depth template scope =
      renderWithin library registry includes template scope := by
  induction templates generalizing includes depth template scope with
  | zero => omega
  | succ templates inductionHypothesis =>
      have sameInclude : (if depth < maxIncludes then some fun name scope => do
            let included ← parse (← library.load name)
            renderBounded library registry cut bounds templates (depth + 1) included scope
          else none) = includedWithin library registry includes := by
        cases includes with
        | zero =>
            rw [if_neg (by omega)]
            rfl
        | succ includes =>
            rw [if_pos (by omega)]
            refine congrArg some (funext fun name => funext fun scope => ?_)
            cases found : library.load name with
            | error cause => rfl
            | ok source =>
                simp only [bind, Except.bind]
                cases parsed : parse source with
                | error cause => rfl
                | ok included =>
                    have fewInSource := bounded found parsed
                    have fewInChain : included.blocks.length + maxAncestors * size ≤
                        bounds.blocks := by omega
                    exact inductionHypothesis (by omega) (by omega)
                      (nodup_blocks_of_parse parsed) fewInChain
      rw [renderBounded, renderWithin_eq, sameInclude]
      simp only [bind, Except.bind]
      cases checkFilters registry template with
      | error cause => rfl
      | ok checked =>
          have searched : searchParents library registry scope cut bounds.rounds [] [template] =
              (ancestorsFrom library registry scope maxAncestors [] template).map
                (template :: ·) :=
            searchParents_eq_map (show [].length + maxAncestors = maxAncestors by simp) rounds
          simp only [searched]
          cases found : ancestorsFrom library registry scope maxAncestors [] template with
          | error cause => rfl
          | ok ancestors =>
              obtain ⟨names, lineage, -, -, short⟩ := ancestorsFrom_eq_ok_iff.mp found
              obtain ⟨distinctChain, fewInChain⟩ := lineage.blocks_le bounded distinct
              have fewAncestors := Nat.mul_le_mul_right size short
              exact (congrFun (renderLineage_eq_renderAll cut distinctChain (by omega)) scope).symm

end Bounded

/--
Rendering a template that has been read comes to an end.  The search for parents takes a round for
every possible ancestor and one more, templates are nested no deeper than they may be, and the
number of blocks that are open at a time has a bound that depends on the library and the source
alone: a rendering that is cut off at these bounds, or at larger ones, is the rendering of the
source.  The ancestors are found exactly if they have different names and are not too many, and a
block inside the body that a level of their chain chooses leads to a level in front of it or to its
own part of that body.
-/
theorem renderSource_within_bounds
    {source : String}
    {template : Template}
    (parsed : parse source = .ok template) :
    (∃ limit, ∀ bounds : Bounds,
      maxAncestors < bounds.rounds → maxIncludes < bounds.templates → limit ≤ bounds.blocks →
        ∀ registry context cut,
          renderBounded library registry cut bounds bounds.templates 0 template context.scope =
            renderSource library registry source context) ∧
      ∀ registry scope ancestors,
        (ancestorsFrom library registry scope maxAncestors [] template = .ok ancestors ↔
          ∃ names, IsLineage library registry scope template names ancestors ∧
            names.Nodup ∧ names.length ≤ maxAncestors) ∧
        (ancestorsFrom library registry scope maxAncestors [] template = .ok ancestors →
          ∀ level name body inner nested, Chooses (template :: ancestors) level name body →
            (inner, nested) ∈ Node.blocksOf body →
              ∃ other shown, Chooses (template :: ancestors) other inner shown ∧
                (other < level ∨ other = level ∧ shown = nested)) := by
  obtain ⟨size, bounded⟩ := exists_blocksAtMost library
  have distinct := nodup_blocks_of_parse parsed
  refine ⟨⟨template.blocks.length + size + maxAncestors * size, ?_⟩, ?_⟩
  · intro bounds rounds templates blocks registry context cut
    rw [renderSource, parsed]
    exact renderBounded_eq bounded rounds (Nat.zero_add maxIncludes) templates distinct
      (by omega) (by omega)
  · intro registry scope ancestors
    have found : ancestorsFrom library registry scope maxAncestors [] template = .ok ancestors ↔
        ∃ names, IsLineage library registry scope template names ancestors ∧
          names.Nodup ∧ names.length ≤ maxAncestors := by
      rw [ancestorsFrom_eq_ok_iff]
      simp
    refine ⟨found, fun isFound level name body inner nested chooses inside => ?_⟩
    obtain ⟨names, lineage, -, -⟩ := found.mp isFound
    exact chooses.exists_of_mem (lineage.blocks_le bounded distinct).1 inside

set_option maxRecDepth 20000 in
/-- Blocks that are nested in one order in a template and in the other in its parent. -/
theorem renderSource_within_bounds_nested :
    let outer := "\x7b% block a %\x7d\x7b% block c %\x7d1\x7b% endblock %\x7d\x7b% endblock %\x7d"
    let source := "\x7b% extends 'b' %\x7d\x7b% block c %\x7d\x7b% block a %\x7d2" ++
      "\x7b% endblock %\x7d\x7b% endblock %\x7d"
    let library := Library.empty.add "b" outer
    let template : Template :=
      ⟨some ⟨.literal (.str "b"), []⟩, [.block "c" [.block "a" [.text "2"]]]⟩
    parse source = .ok template ∧
      parse outer = .ok ⟨none, [.block "a" [.block "c" [.text "1"]]]⟩ ∧
      ∃ limit, ∀ bounds : Bounds,
        maxAncestors < bounds.rounds → maxIncludes < bounds.templates → limit ≤ bounds.blocks →
          ∀ cut, renderBounded library .empty cut bounds bounds.templates 0 template
            (Context.scope .empty) = .ok "2" := by
  intro outer source library template
  have parsed : parse source = .ok template := by cbv
  have parsedOuter : parse outer = .ok ⟨none, [.block "a" [.block "c" [.text "1"]]]⟩ := by cbv
  have loaded : loadChecked library .empty "b" =
      .ok ⟨none, [.block "a" [.block "c" [.text "1"]]]⟩ := by
    have found : library.load "b" = .ok outer := by decide
    rw [loadChecked, found]
    simp only [bind, Except.bind, parsedOuter]
    rfl
  have ancestors : ancestorsFrom library .empty (Context.scope .empty) maxAncestors [] template =
      .ok [⟨none, [.block "a" [.block "c" [.text "1"]]]⟩] := by
    have isNamed : FilterChain.eval .empty (Context.scope .empty) ⟨.literal (.str "b"), []⟩ =
        .ok ⟨.str "b", true⟩ := rfl
    exact ancestorsFrom_eq_ok_iff.mpr
      ⟨["b"], .derived rfl isNamed loaded (.root rfl), by simp [maxAncestors]⟩
  have rendered : renderSource library .empty source .empty = .ok "2" := by
    rw [renderSource, parsed]
    change renderWithin _ _ _ _ _ = _
    rw [renderWithin_eq, ancestors]
    rfl
  obtain ⟨limit, within⟩ := (@renderSource_within_bounds library source template parsed).1
  refine ⟨parsed, parsedOuter, limit, fun bounds rounds templates blocks cut => ?_⟩
  rw [within bounds rounds templates blocks, rendered]

end Template
end TemplatedMarkup
