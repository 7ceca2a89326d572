import TemplatedMarkup.Proofs.Template.Block
import TemplatedMarkup.Template.Render

/-!
# Blocks of a chain of templates

A chain is a template with its ancestors, from the template on.  A block is shown with the body
that the first template of the chain gives to its name, so showing a block may lead from one
template of the chain to another and back.  It never leads into a circle: a block inside the body
of a block belongs to a template closer to the start of the chain, or it is shown with the part of
that body that it stands for.
-/

namespace TemplatedMarkup
namespace Template

/-- Every template of a chain gives different names to its blocks. -/
def HasDistinctBlocks (chain : List Template) : Prop :=
  ∀ template ∈ chain, (template.blocks.map (·.1)).Nodup

/-- The body that a chain of templates gives to a block. -/
def chosenBody? (chain : List Template) (name : String) : Option (List Node) :=
  (chain.flatMap blocks).lookup name

/-- The template at a level is the first of a chain that defines a block, with a body. -/
structure Chooses
    (chain : List Template)
    (level : Nat)
    (name : String)
    (body : List Node) : Prop where
  /-- The template at the level defines the block. -/
  defined : ∃ template, chain[level]? = some template ∧ template.blocks.lookup name = some body
  /-- No template in front of it defines the block. -/
  first : chosenBody? (chain.take level) name = none

section Choice

variable {chain : List Template} {name : String} {body : List Node}

theorem chosenBody?_append (front behind : List Template) :
    chosenBody? (front ++ behind) name =
      (chosenBody? front name).or (chosenBody? behind name) := by
  simp [chosenBody?, List.lookup_append]

theorem chosenBody?_cons (template : Template) (chain : List Template) :
    chosenBody? (template :: chain) name =
      (template.blocks.lookup name).or (chosenBody? chain name) := by
  simp [chosenBody?, List.lookup_append]

/-- The template that chooses a body splits its chain. -/
theorem Chooses.exists_split
    {level : Nat}
    (chooses : Chooses chain level name body) :
    ∃ template, chain = chain.take level ++ template :: chain.drop (level + 1) ∧
      template.blocks.lookup name = some body := by
  obtain ⟨template, atLevel, defines⟩ := chooses.defined
  obtain ⟨inBounds, isTemplate⟩ := List.getElem?_eq_some_iff.mp atLevel
  refine ⟨template, ?_, defines⟩
  rw [← isTemplate, List.cons_getElem_drop_succ, List.take_append_drop]

/-- What a template gives to a block is one of its blocks. -/
theorem mem_of_lookup_eq_some
    {template : Template}
    (defines : template.blocks.lookup name = some body) :
    (name, body) ∈ template.blocks := by
  obtain ⟨front, behind, split, -⟩ := List.lookup_eq_some_iff.mp defines
  simp [split]

/-- The body of a block is the one that some level chooses. -/
theorem chosenBody?_eq_some_iff :
    chosenBody? chain name = some body ↔ ∃ level, Chooses chain level name body := by
  constructor
  · intro chosen
    induction chain with
    | nil => simp [chosenBody?] at chosen
    | cons template chain inductionHypothesis =>
        rw [chosenBody?_cons] at chosen
        cases own : template.blocks.lookup name with
        | some found =>
            rw [own] at chosen
            obtain rfl := Option.some.inj chosen
            exact ⟨0, ⟨template, rfl, own⟩, rfl⟩
        | none =>
            rw [own, Option.none_or] at chosen
            obtain ⟨level, ⟨other, atLevel, defines⟩, first⟩ := inductionHypothesis chosen
            refine ⟨level + 1, ⟨other, by simpa using atLevel, defines⟩, ?_⟩
            rw [List.take_succ_cons, chosenBody?_cons, own, first]
            rfl
  · rintro ⟨level, chooses⟩
    obtain ⟨template, split, defines⟩ := chooses.exists_split
    rw [split, chosenBody?_append, chooses.first, chosenBody?_cons, defines]
    rfl

/-- The template that gives a block its body splits its chain. -/
theorem exists_split_of_chosenBody?
    (chosen : chosenBody? chain name = some body) :
    ∃ front template behind, chain = front ++ template :: behind ∧
      chosenBody? front name = none ∧ template.blocks.lookup name = some body := by
  obtain ⟨level, chooses⟩ := chosenBody?_eq_some_iff.mp chosen
  obtain ⟨template, split, defines⟩ := chooses.exists_split
  exact ⟨_, template, _, split, chooses.first, defines⟩

/-- A template with different names for its blocks gives a block the body that it has there. -/
theorem lookup_eq_some_of_mem
    {template : Template}
    (distinct : (template.blocks.map (·.1)).Nodup)
    (among : (name, body) ∈ template.blocks) :
    template.blocks.lookup name = some body := by
  obtain ⟨front, behind, split⟩ := List.append_of_mem among
  rw [split, List.map_append, List.map_cons, List.nodup_append] at distinct
  refine List.lookup_eq_some_iff.mpr ⟨front, behind, split, fun block inFront => ?_⟩
  have other := distinct.2.2 block.1 (List.mem_map_of_mem inFront) name List.mem_cons_self
  simpa [bne_iff_ne] using Ne.symm other

/--
A block inside the body that a level chooses for a block is shown with a body that a level in front
of it chooses, or with the body that it has there.
-/
theorem Chooses.exists_of_mem
    {level : Nat}
    {inner : String}
    {nested : List Node}
    (distinct : HasDistinctBlocks chain)
    (chooses : Chooses chain level name body)
    (inside : (inner, nested) ∈ Node.blocksOf body) :
    ∃ other shown, Chooses chain other inner shown ∧
      (other < level ∨ other = level ∧ shown = nested) := by
  obtain ⟨template, atLevel, defines⟩ := chooses.defined
  have among : template ∈ chain := List.mem_of_getElem? atLevel
  cases nearer : chosenBody? (chain.take level) inner with
  | some shown =>
      obtain ⟨other, ⟨nearest, atOther, definesOther⟩, first⟩ :=
        chosenBody?_eq_some_iff.mp nearer
      obtain ⟨inBounds, -⟩ := List.getElem?_eq_some_iff.mp atOther
      rw [List.length_take] at inBounds
      have isNearer : other < level := by omega
      refine ⟨other, shown, ⟨⟨nearest, ?_, definesOther⟩, ?_⟩, .inl isNearer⟩
      · rwa [List.getElem?_take_of_lt isNearer] at atOther
      · rwa [List.take_take, Nat.min_eq_left (Nat.le_of_lt isNearer)] at first
  | none =>
      have innerAmong : (inner, nested) ∈ template.blocks :=
        (Node.sublist_blocksOf (mem_of_lookup_eq_some defines)).subset
          (List.mem_cons_of_mem _ inside)
      exact ⟨level, nested,
        ⟨⟨template, atLevel, lookup_eq_some_of_mem (distinct template among) innerAmong⟩, nearer⟩,
        .inr ⟨rfl, rfl⟩⟩

end Choice

/-! ## Showing the chosen bodies -/

namespace Node

variable {surroundings : Surroundings} {overrides some₁ some₂ : Overrides}

theorem render_block_of_some
    {name : String}
    {body : List Node}
    {shown : Rendering}
    (overridden : overrides name = some shown) :
    (Node.block name body).render surroundings overrides = shown := by
  funext scope
  rw [render, overridden]

theorem render_block_of_none
    {name : String}
    {body : List Node}
    (overridden : overrides name = none) :
    (Node.block name body).render surroundings overrides =
      renderAll surroundings overrides body := by
  funext scope
  rw [render, overridden]

mutual

/-- A node is shown the same if its blocks are. -/
theorem render_congr :
    ∀ (node : Node),
      (∀ name body, (name, body) ∈ node.blocks →
        (Node.block name body).render surroundings some₁ =
          (Node.block name body).render surroundings some₂) →
      node.render surroundings some₁ = node.render surroundings some₂
  | .text _, _ => rfl
  | .variable _, _ => rfl
  | .include _, _ => rfl
  | .block name body, same => same name body List.mem_cons_self
  | .branch branches otherwise, same => by
      have sameBranch := renderBranch?_congr branches fun name body among =>
        same name body (List.mem_append_left _ among)
      have sameOtherwise := renderAll_congr otherwise fun name body among =>
        same name body (List.mem_append_right _ among)
      funext scope
      rw [render, render, sameBranch, sameOtherwise]
  | .loop header body empty, same => by
      have sameBody := renderAll_congr body fun name inner among =>
        same name inner (List.mem_append_left _ among)
      have sameEmpty := renderAll_congr empty fun name inner among =>
        same name inner (List.mem_append_right _ among)
      funext scope
      rw [render, render, sameBody, sameEmpty]

/-- Nodes are shown the same if their blocks are. -/
theorem renderAll_congr :
    ∀ (nodes : List Node),
      (∀ name body, (name, body) ∈ blocksOf nodes →
        (Node.block name body).render surroundings some₁ =
          (Node.block name body).render surroundings some₂) →
      renderAll surroundings some₁ nodes = renderAll surroundings some₂ nodes
  | [], _ => rfl
  | node :: nodes, same => by
      have sameNode := render_congr node fun name body among =>
        same name body (List.mem_append_left _ among)
      have sameNodes := renderAll_congr nodes fun name body among =>
        same name body (List.mem_append_right _ among)
      funext scope
      rw [renderAll, renderAll, sameNode, sameNodes]

/-- Branches are shown the same if the blocks of their bodies are. -/
theorem renderBranch?_congr :
    ∀ (branches : List (Expression.Expr × List Node)),
      (∀ name body, (name, body) ∈ blocksOfBranches branches →
        (Node.block name body).render surroundings some₁ =
          (Node.block name body).render surroundings some₂) →
      renderBranch? surroundings some₁ branches = renderBranch? surroundings some₂ branches
  | [], _ => rfl
  | (condition, body) :: branches, same => by
      have sameBody := renderAll_congr body fun name inner among =>
        same name inner (List.mem_append_left _ among)
      have sameBranches := renderBranch?_congr branches fun name inner among =>
        same name inner (List.mem_append_right _ among)
      funext scope
      rw [renderBranch?, renderBranch?, sameBody, sameBranches]

end

end Node

section Showing

variable {surroundings : Surroundings} {name : String} {body : List Node}

/--
Every block is shown with the body that a table gives to it, also when it stands inside another
block; when `limit` blocks are open, the next one is the error `cut`.
-/
def tableOverrides
    (surroundings : Surroundings)
    (table : String → Option (List Node))
    (cut : TemplateError) : Nat → Overrides
  | 0 => fun _ => some fun _ => .error cut
  | limit + 1 => fun name => (table name).map fun body =>
      Node.renderAll surroundings (tableOverrides surroundings table cut limit) body

theorem tableOverrides_succ
    {table : String → Option (List Node)}
    {cut : TemplateError}
    {limit : Nat}
    (found : table name = some body) :
    tableOverrides surroundings table cut (limit + 1) name =
      some (Node.renderAll surroundings (tableOverrides surroundings table cut limit) body) := by
  simp [tableOverrides, found]

/-- How blocks are shown behind some templates of a chain. -/
def overridesBehind (surroundings : Surroundings) (front : List Template) : Overrides :=
  front.foldl (fun shown template => template.overrides surroundings shown) fun _ => none

theorem overridesBehind_append_singleton (front : List Template) (template : Template) :
    overridesBehind surroundings (front ++ [template]) =
      template.overrides surroundings (overridesBehind surroundings front) := by
  simp [overridesBehind]

/-- The last template of a chain is rendered behind the others. -/
theorem renderLineage_eq
    {template root : Template}
    {ancestors front : List Template}
    (split : template :: ancestors = front ++ [root]) :
    renderLineage surroundings (fun _ => none) template ancestors =
      Node.renderAll surroundings (overridesBehind surroundings front) root.nodes := by
  suffices general : ∀ (shown : Overrides) (template : Template) (front : List Template),
      template :: ancestors = front ++ [root] →
        renderLineage surroundings shown template ancestors =
          Node.renderAll surroundings
            (front.foldl (fun shown template => template.overrides surroundings shown) shown)
            root.nodes from general _ _ _ split
  clear split
  induction ancestors with
  | nil =>
      intro shown template front split
      obtain ⟨rfl, same⟩ : front = [] ∧ [template] = [root] := by
        cases front with
        | nil => exact ⟨rfl, split⟩
        | cons => simp at split
      obtain rfl := List.singleton_inj.mp same
      rfl
  | cons parent ancestors inductionHypothesis =>
      intro shown template front split
      cases front with
      | nil => simp at split
      | cons other front =>
          obtain ⟨rfl, rest⟩ := List.cons_eq_cons.mp split
          exact inductionHypothesis _ parent front rest

/-- Behind templates that do not define a block, the block is shown with its own body. -/
theorem overridesBehind_eq_none
    {front : List Template}
    (undefined : chosenBody? front name = none) :
    overridesBehind surroundings front name = none := by
  induction front using List.reverseRecOn with
  | nil => rfl
  | append_singleton front template inductionHypothesis =>
      rw [chosenBody?_append, Option.or_eq_none_iff, chosenBody?_cons,
        Option.or_eq_none_iff] at undefined
      rw [overridesBehind_append_singleton, overrides, inductionHypothesis undefined.1,
        undefined.2.1]
      rfl

/-- Behind the first template that defines a block, the block is shown with the body there. -/
theorem overridesBehind_eq_some
    {front behind : List Template}
    {template : Template}
    (undefined : chosenBody? front name = none)
    (defines : template.blocks.lookup name = some body) :
    overridesBehind surroundings (front ++ template :: behind) name =
      some (Node.renderAll surroundings (overridesBehind surroundings front) body) := by
  induction behind using List.reverseRecOn with
  | nil =>
      rw [overridesBehind_append_singleton, overrides, overridesBehind_eq_none undefined, defines]
      rfl
  | append_singleton behind other inductionHypothesis =>
      rw [← List.cons_append, ← List.append_assoc, overridesBehind_append_singleton, overrides,
        inductionHypothesis]
      rfl

/--
A template of a chain shows the bodies that the chain chooses, and at most as many blocks are open
at a time as the templates in front of it and the nodes have.
-/
theorem renderAll_tableOverrides
    {front behind : List Template}
    {template : Template}
    {nodes : List Node}
    {limit : Nat}
    (cut : TemplateError)
    (distinct : HasDistinctBlocks (front ++ template :: behind))
    (inside : Node.blocksOf nodes ⊆ template.blocks)
    (enough : (front.flatMap blocks).length + (Node.blocksOf nodes).length ≤ limit) :
    Node.renderAll surroundings
        (tableOverrides surroundings (chosenBody? (front ++ template :: behind)) cut limit) nodes =
      Node.renderAll surroundings (overridesBehind surroundings front) nodes := by
  induction limit generalizing front template behind nodes with
  | zero =>
      have noBlocks : Node.blocksOf nodes = [] := List.length_eq_zero_iff.mp (by omega)
      refine Node.renderAll_congr _ fun name body among => ?_
      simp [noBlocks] at among
  | succ limit inductionHypothesis =>
      refine Node.renderAll_congr _ fun name body among => ?_
      have nested := (Node.sublist_blocksOf among).length_le
      rw [List.length_cons] at nested
      -- A body from a template in front has blocks of that template, which `front` counted; a body
      -- shown in place has fewer blocks than `nodes`.  So `limit` is enough for what is left.
      cases chosen : chosenBody? front name with
      | some shown =>
          obtain ⟨first, nearest, rest, rfl, undefined, defines⟩ :=
            exists_split_of_chosenBody? chosen
          have nearestInside : ((name, shown) :: Node.blocksOf shown).Sublist nearest.blocks :=
            Node.sublist_blocksOf (mem_of_lookup_eq_some defines)
          have shorter := nearestInside.length_le
          have isChosen : chosenBody? (first ++ nearest :: rest ++ template :: behind) name =
              some shown := by
            rw [chosenBody?_append, chosen, Option.some_or]
          rw [Node.render_block_of_some (tableOverrides_succ isChosen),
            Node.render_block_of_some (overridesBehind_eq_some undefined defines)]
          simp only [List.append_assoc, List.cons_append, List.flatMap_append, List.flatMap_cons,
            List.length_append, List.length_cons] at distinct enough shorter ⊢
          exact inductionHypothesis distinct
            (fun block isInside => nearestInside.subset (List.mem_cons_of_mem _ isInside))
            (by omega)
      | none =>
          have own := lookup_eq_some_of_mem (distinct template (by simp)) (inside among)
          have isChosen : chosenBody? (front ++ template :: behind) name = some body := by
            rw [chosenBody?_append, chosen, chosenBody?_cons, own, Option.none_or, Option.some_or]
          rw [Node.render_block_of_some (tableOverrides_succ isChosen),
            Node.render_block_of_none (overridesBehind_eq_none chosen)]
          exact inductionHypothesis distinct
            (fun block isInside => inside
              ((Node.sublist_blocksOf among).subset (List.mem_cons_of_mem _ isInside)))
            (by omega)

/-- A template with ancestors is the last of them, with the bodies that the chain chooses. -/
theorem renderLineage_eq_renderAll
    {template : Template}
    {ancestors : List Template}
    {limit : Nat}
    (cut : TemplateError)
    (distinct : HasDistinctBlocks (template :: ancestors))
    (enough : ((template :: ancestors).flatMap blocks).length ≤ limit) :
    renderLineage surroundings (fun _ => none) template ancestors =
      Node.renderAll surroundings
        (tableOverrides surroundings (chosenBody? (template :: ancestors)) cut limit)
        ((template :: ancestors).getLast?.elim [] nodes) := by
  obtain ⟨front, root, split⟩ : ∃ front root, template :: ancestors = front ++ [root] :=
    (List.eq_nil_or_concat' _).resolve_left (List.cons_ne_nil _ _)
  rw [renderLineage_eq split, split, List.getLast?_concat]
  rw [split] at distinct enough
  rw [List.flatMap_append, List.length_append, List.flatMap_singleton] at enough
  exact (renderAll_tableOverrides cut distinct (List.Subset.refl root.blocks) enough).symm

end Showing

end Template
end TemplatedMarkup
