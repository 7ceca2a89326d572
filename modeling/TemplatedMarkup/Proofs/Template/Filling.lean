import TemplatedMarkup.Proofs.Template.Inheritance

/-!
# Filling blocks

A chain of templates is shown as one list of nodes without blocks: the nodes of the last template,
in which every block has been replaced by the body that the chain chooses for it, and every block
in that body likewise.
-/

namespace TemplatedMarkup
namespace Template
namespace Node

/-! ## Replacing blocks -/

mutual

/-- A node with other nodes in the place of its blocks. -/
def replace (bodies : String → List Node) : Node → List Node
  | .text content => [.text content]
  | .variable chain => [.variable chain]
  | .block name _ => bodies name
  | .branch branches otherwise =>
      [.branch (replaceBranches bodies branches) (replaceAll bodies otherwise)]
  | .loop header body empty => [.loop header (replaceAll bodies body) (replaceAll bodies empty)]
  | .include chain => [.include chain]

/-- Nodes with other nodes in the place of their blocks. -/
def replaceAll (bodies : String → List Node) : List Node → List Node
  | [] => []
  | node :: nodes => node.replace bodies ++ replaceAll bodies nodes

/-- Branches with other nodes in the place of the blocks of their bodies. -/
def replaceBranches (bodies : String → List Node) :
    List (Expression.Expr × List Node) → List (Expression.Expr × List Node)
  | [] => []
  | (condition, body) :: branches =>
      (condition, replaceAll bodies body) :: replaceBranches bodies branches

end

theorem blocksOf_append (front behind : List Node) :
    blocksOf (front ++ behind) = blocksOf front ++ blocksOf behind := by
  simp [blocksOf_eq_flatMap]

section Replacing

variable {bodies : String → List Node}

mutual

/-- A node is left without blocks if they are replaced by nodes without blocks. -/
theorem blocksOf_replace :
    ∀ (node : Node), (∀ name body, (name, body) ∈ node.blocks → blocksOf (bodies name) = []) →
      blocksOf (node.replace bodies) = []
  | .text _, _ => rfl
  | .variable _, _ => rfl
  | .include _, _ => rfl
  | .block name body, noBlocks => noBlocks name body List.mem_cons_self
  | .branch branches otherwise, noBlocks => by
      have inBranches := blocksOfBranches_replaceBranches branches fun name body among =>
        noBlocks name body (List.mem_append_left _ among)
      have inOtherwise := blocksOf_replaceAll otherwise fun name body among =>
        noBlocks name body (List.mem_append_right _ among)
      simp [replace, blocksOf, blocks, inBranches, inOtherwise]
  | .loop header body empty, noBlocks => by
      have inBody := blocksOf_replaceAll body fun name inner among =>
        noBlocks name inner (List.mem_append_left _ among)
      have inEmpty := blocksOf_replaceAll empty fun name inner among =>
        noBlocks name inner (List.mem_append_right _ among)
      simp [replace, blocksOf, blocks, inBody, inEmpty]

/-- Nodes are left without blocks if these are replaced by nodes without blocks. -/
theorem blocksOf_replaceAll :
    ∀ (nodes : List Node),
      (∀ name body, (name, body) ∈ blocksOf nodes → blocksOf (bodies name) = []) →
        blocksOf (replaceAll bodies nodes) = []
  | [], _ => rfl
  | node :: nodes, noBlocks => by
      have inNode := blocksOf_replace node fun name body among =>
        noBlocks name body (List.mem_append_left _ among)
      have inNodes := blocksOf_replaceAll nodes fun name body among =>
        noBlocks name body (List.mem_append_right _ among)
      simp [replaceAll, blocksOf_append, inNode, inNodes]

/-- Branches are left without blocks if these are replaced by nodes without blocks. -/
theorem blocksOfBranches_replaceBranches :
    ∀ (branches : List (Expression.Expr × List Node)),
      (∀ name body, (name, body) ∈ blocksOfBranches branches → blocksOf (bodies name) = []) →
        blocksOfBranches (replaceBranches bodies branches) = []
  | [], _ => rfl
  | (condition, body) :: branches, noBlocks => by
      have inBody := blocksOf_replaceAll body fun name inner among =>
        noBlocks name inner (List.mem_append_left _ among)
      have inBranches := blocksOfBranches_replaceBranches branches fun name inner among =>
        noBlocks name inner (List.mem_append_right _ among)
      simp [replaceBranches, blocksOfBranches, inBody, inBranches]

end

end Replacing

/-! ## Showing replaced blocks -/

section Showing

variable {surroundings : Surroundings} {overrides : Overrides} {bodies : String → List Node}

theorem renderAll_singleton (node : Node) :
    renderAll surroundings overrides [node] = node.render surroundings overrides := by
  funext scope
  rw [renderAll, renderAll]
  cases node.render surroundings overrides scope <;>
    simp [bind, Except.bind, pure, Except.pure]

theorem renderAll_append (front behind : List Node) (scope : Scope) :
    renderAll surroundings overrides (front ++ behind) scope = (do
      let text ← renderAll surroundings overrides front scope
      return text ++ (← renderAll surroundings overrides behind scope)) := by
  induction front with
  | nil =>
      rw [List.nil_append, renderAll]
      cases renderAll surroundings overrides behind scope <;>
        simp [bind, Except.bind, pure, Except.pure]
  | cons node front inductionHypothesis =>
      rw [List.cons_append, renderAll, renderAll, inductionHypothesis]
      simp only [bind_assoc, pure_bind, String.append_assoc]

mutual

/-- Replacing the blocks of a node by what they are shown as does not change its text. -/
theorem renderAll_replace :
    ∀ (node : Node),
      (∀ name body, (name, body) ∈ node.blocks →
        (Node.block name body).render surroundings overrides =
          renderAll surroundings (fun _ => none) (bodies name)) →
      node.render surroundings overrides =
        renderAll surroundings (fun _ => none) (node.replace bodies)
  | .text _, _ => (renderAll_singleton _).symm
  | .variable _, _ => (renderAll_singleton _).symm
  | .include _, _ => (renderAll_singleton _).symm
  | .block name body, same => same name body List.mem_cons_self
  | .branch branches otherwise, same => by
      have sameBranch := renderBranch?_replaceBranches branches fun name body among =>
        same name body (List.mem_append_left _ among)
      have sameOtherwise := renderAll_replaceAll otherwise fun name body among =>
        same name body (List.mem_append_right _ among)
      funext scope
      rw [replace, renderAll_singleton, render, render, sameBranch, sameOtherwise]
  | .loop header body empty, same => by
      have sameBody := renderAll_replaceAll body fun name inner among =>
        same name inner (List.mem_append_left _ among)
      have sameEmpty := renderAll_replaceAll empty fun name inner among =>
        same name inner (List.mem_append_right _ among)
      funext scope
      rw [replace, renderAll_singleton, render, render, sameBody, sameEmpty]

/-- Replacing the blocks of nodes by what they are shown as does not change the text. -/
theorem renderAll_replaceAll :
    ∀ (nodes : List Node),
      (∀ name body, (name, body) ∈ blocksOf nodes →
        (Node.block name body).render surroundings overrides =
          renderAll surroundings (fun _ => none) (bodies name)) →
      renderAll surroundings overrides nodes =
        renderAll surroundings (fun _ => none) (replaceAll bodies nodes)
  | [], _ => rfl
  | node :: nodes, same => by
      have sameNode := renderAll_replace node fun name body among =>
        same name body (List.mem_append_left _ among)
      have sameNodes := renderAll_replaceAll nodes fun name body among =>
        same name body (List.mem_append_right _ among)
      funext scope
      rw [replaceAll, renderAll_append, renderAll, sameNode, sameNodes]

/-- Replacing the blocks of branches by what they are shown as does not change the text. -/
theorem renderBranch?_replaceBranches :
    ∀ (branches : List (Expression.Expr × List Node)),
      (∀ name body, (name, body) ∈ blocksOfBranches branches →
        (Node.block name body).render surroundings overrides =
          renderAll surroundings (fun _ => none) (bodies name)) →
      renderBranch? surroundings overrides branches =
        renderBranch? surroundings (fun _ => none) (replaceBranches bodies branches)
  | [], _ => rfl
  | (condition, body) :: branches, same => by
      have sameBody := renderAll_replaceAll body fun name inner among =>
        same name inner (List.mem_append_left _ among)
      have sameBranches := renderBranch?_replaceBranches branches fun name inner among =>
        same name inner (List.mem_append_right _ among)
      funext scope
      rw [replaceBranches, renderBranch?, renderBranch?, sameBody, sameBranches]

end

end Showing

/-! ## Filling -/

/--
Nodes are filled when every block is replaced by the body that a table gives to its name, in which
every block has been replaced likewise.
-/
inductive Fills (table : String → Option (List Node)) : List Node → List Node → Prop
  /-- Replace all blocks by their bodies, which have been filled. -/
  | replace {nodes : List Node} (chosen filled : String → List Node) :
      (∀ name body, (name, body) ∈ blocksOf nodes → table name = some (chosen name)) →
      (∀ name body, (name, body) ∈ blocksOf nodes → Fills table (chosen name) (filled name)) →
      Fills table nodes (replaceAll filled nodes)

section Filling

variable {table : String → Option (List Node)} {nodes filled : List Node}

/-- Nodes that have been filled have no blocks. -/
theorem Fills.blocksOf_eq_nil
    (fills : Fills table nodes filled) :
    blocksOf filled = [] := by
  induction fills with
  | replace _ filled _ _ inductionHypothesis =>
      exact blocksOf_replaceAll _ inductionHypothesis

/-- Nodes can be filled if the body of every block can. -/
theorem exists_fills
    (fillable : ∀ name body, (name, body) ∈ blocksOf nodes →
      ∃ chosen, table name = some chosen ∧ ∃ filled, Fills table chosen filled) :
    ∃ filled, Fills table nodes filled := by
  have inTable : ∀ name body, (name, body) ∈ blocksOf nodes →
      table name = some ((table name).getD []) := by
    intro name body among
    obtain ⟨chosen, isChosen, -⟩ := fillable name body among
    rw [isChosen, Option.getD_some]
  have fills : ∀ name, ∃ filled, ∀ body, (name, body) ∈ blocksOf nodes →
      Fills table ((table name).getD []) filled := by
    intro name
    by_cases isBlock : ∃ body, (name, body) ∈ blocksOf nodes
    · obtain ⟨body, among⟩ := isBlock
      obtain ⟨chosen, isChosen, filled, fills⟩ := fillable name body among
      refine ⟨filled, fun _ _ => ?_⟩
      rwa [isChosen, Option.getD_some]
    · exact ⟨[], fun body among => absurd ⟨body, among⟩ isBlock⟩
  choose filled fills using fills
  exact ⟨_, .replace _ filled inTable fills⟩

end Filling

end Node

/-! ## Filling with chosen bodies -/

section Choosing

variable {chain : List Template}

/-- Every body that a chain chooses can be filled. -/
theorem Chooses.exists_fills
    {level : Nat}
    {name : String}
    {body : List Node}
    (distinct : HasDistinctBlocks chain)
    (chooses : Chooses chain level name body) :
    ∃ filled, Node.Fills (chosenBody? chain) body filled := by
  -- A block inside the body leads to a nearer level, or to a smaller body at the same level.
  induction level using Nat.strongRecOn generalizing name body with
  | ind level nearerFilled =>
      induction size : (Node.blocksOf body).length using Nat.strongRecOn
        generalizing name body with
      | ind size smallerFilled =>
          refine Node.exists_fills fun inner nested inside => ?_
          obtain ⟨other, shown, choosesInner, isNearer⟩ := chooses.exists_of_mem distinct inside
          refine ⟨shown, chosenBody?_eq_some_iff.mpr ⟨other, choosesInner⟩, ?_⟩
          rcases isNearer with nearer | ⟨rfl, rfl⟩
          · exact nearerFilled other nearer choosesInner
          · have smaller := (Node.sublist_blocksOf inside).length_le
            rw [List.length_cons, size] at smaller
            exact smallerFilled _ smaller choosesInner rfl

/-- The nodes of every template of a chain can be filled. -/
theorem exists_fills_of_mem
    {template : Template}
    (distinct : HasDistinctBlocks chain)
    (member : template ∈ chain) :
    ∃ filled, Node.Fills (chosenBody? chain) template.nodes filled := by
  refine Node.exists_fills fun name body among => ?_
  have inChain : (name, body) ∈ chain.flatMap blocks := List.mem_flatMap.mpr ⟨_, member, among⟩
  cases chosen : chosenBody? chain name with
  | none => simpa using List.lookup_eq_none_iff.mp chosen _ inChain
  | some shown =>
      obtain ⟨level, chooses⟩ := chosenBody?_eq_some_iff.mp chosen
      exact ⟨shown, rfl, chooses.exists_fills distinct⟩

variable {surroundings : Surroundings}

/-- Nodes of a template of a chain are shown as the nodes that they are filled to. -/
theorem renderAll_of_fills
    {front behind : List Template}
    {template : Template}
    {nodes filled : List Node}
    (distinct : HasDistinctBlocks chain)
    (fills : Node.Fills (chosenBody? chain) nodes filled)
    (split : chain = front ++ template :: behind)
    (inside : Node.blocksOf nodes ⊆ template.blocks) :
    Node.renderAll surroundings (overridesBehind surroundings front) nodes =
      Node.renderAll surroundings (fun _ => none) filled := by
  induction fills generalizing front behind template with
  | replace chosen filled isChosen _ inductionHypothesis =>
      refine Node.renderAll_replaceAll _ fun name body among => ?_
      have chosenName := isChosen name body among
      rw [split, chosenBody?_append, chosenBody?_cons] at chosenName
      -- A body from a template in front is shown behind the templates in front of that one only,
      -- so the split moves there; a body of the template itself is shown in place.
      cases nearer : chosenBody? front name with
      | some shown =>
          rw [nearer, Option.some_or] at chosenName
          obtain rfl := Option.some.inj chosenName
          obtain ⟨first, nearest, rest, rfl, undefined, defines⟩ :=
            exists_split_of_chosenBody? nearer
          rw [Node.render_block_of_some (overridesBehind_eq_some undefined defines)]
          have insideNearest : Node.blocksOf (chosen name) ⊆ nearest.blocks := fun block isInside =>
            (Node.sublist_blocksOf (mem_of_lookup_eq_some defines)).subset
              (List.mem_cons_of_mem _ isInside)
          rw [List.append_assoc, List.cons_append] at split
          exact inductionHypothesis name body among split insideNearest
      | none =>
          have own := lookup_eq_some_of_mem (distinct template (by simp [split])) (inside among)
          rw [nearer, Option.none_or, own, Option.some_or] at chosenName
          obtain rfl := Option.some.inj chosenName
          rw [Node.render_block_of_none (overridesBehind_eq_none nearer)]
          have insideOwn : Node.blocksOf (chosen name) ⊆ template.blocks := fun block isInside =>
            inside ((Node.sublist_blocksOf among).subset (List.mem_cons_of_mem _ isInside))
          exact inductionHypothesis name _ among split insideOwn

/-- A template with its ancestors is shown as the nodes that those of the last are filled to. -/
theorem renderLineage_of_fills
    {template : Template}
    {ancestors : List Template}
    {filled : List Node}
    (distinct : HasDistinctBlocks (template :: ancestors))
    (fills : Node.Fills (chosenBody? (template :: ancestors))
      ((template :: ancestors).getLast (List.cons_ne_nil _ _)).nodes filled) :
    renderLineage surroundings (fun _ => none) template ancestors =
      Node.renderAll surroundings (fun _ => none) filled := by
  have split := (List.dropLast_append_getLast (List.cons_ne_nil template ancestors)).symm
  rw [renderLineage_eq split]
  exact renderAll_of_fills distinct fills split (List.Subset.refl _)

end Choosing

end Template
end TemplatedMarkup
