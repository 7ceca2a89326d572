import TemplatedMarkup.Proofs.Outcome
import TemplatedMarkup.Template.Parser

/-!
# Blocks of templates

The blocks of a template that has been read have different names.  While it is read, every block
that is open or done has its own entry among the names that are noted.
-/

namespace TemplatedMarkup
namespace Template
namespace Node

theorem blocksOf_eq_flatMap (nodes : List Node) :
    blocksOf nodes = nodes.flatMap blocks := by
  induction nodes with
  | nil => rfl
  | cons node nodes inductionHypothesis => simp [blocksOf, inductionHypothesis]

theorem blocksOfBranches_eq_flatMap (branches : List (Expression.Expr × List Node)) :
    blocksOfBranches branches = branches.flatMap fun branch => blocksOf branch.2 := by
  induction branches with
  | nil => rfl
  | cons branch branches inductionHypothesis => simp [blocksOfBranches, inductionHypothesis]

mutual

/-- A block of a node comes with the blocks of its body. -/
theorem sublist_blocks :
    ∀ {node : Node} {name : String} {body : List Node},
      (name, body) ∈ node.blocks → ((name, body) :: blocksOf body).Sublist node.blocks
  | .block _ inner, name, body, among => by
      rcases List.mem_cons.mp among with same | inside
      · obtain ⟨rfl, rfl⟩ := Prod.mk.inj same
        exact List.Sublist.refl _
      · exact (sublist_blocksOf inside).cons _
  | .branch branches otherwise, name, body, among => by
      rcases List.mem_append.mp among with inBranches | inOtherwise
      · exact (sublist_blocksOfBranches inBranches).trans (List.sublist_append_left _ _)
      · exact (sublist_blocksOf inOtherwise).trans (List.sublist_append_right _ _)
  | .loop _ inner empty, name, body, among => by
      rcases List.mem_append.mp among with inBody | inEmpty
      · exact (sublist_blocksOf inBody).trans (List.sublist_append_left _ _)
      · exact (sublist_blocksOf inEmpty).trans (List.sublist_append_right _ _)
  | .text _, _, _, among => by simp [blocks] at among
  | .variable _, _, _, among => by simp [blocks] at among
  | .include _, _, _, among => by simp [blocks] at among

/-- A block of some nodes comes with the blocks of its body. -/
theorem sublist_blocksOf :
    ∀ {nodes : List Node} {name : String} {body : List Node},
      (name, body) ∈ blocksOf nodes → ((name, body) :: blocksOf body).Sublist (blocksOf nodes)
  | [], _, _, among => by simp [blocksOf] at among
  | _ :: _, name, body, among => by
      rcases List.mem_append.mp among with inNode | inNodes
      · exact (sublist_blocks inNode).trans (List.sublist_append_left _ _)
      · exact (sublist_blocksOf inNodes).trans (List.sublist_append_right _ _)

/-- A block of the bodies of branches comes with the blocks of its body. -/
theorem sublist_blocksOfBranches :
    ∀ {branches : List (Expression.Expr × List Node)} {name : String} {body : List Node},
      (name, body) ∈ blocksOfBranches branches →
        ((name, body) :: blocksOf body).Sublist (blocksOfBranches branches)
  | [], _, _, among => by simp [blocksOfBranches] at among
  | (_, _) :: _, name, body, among => by
      rcases List.mem_append.mp among with inBranch | inBranches
      · exact (sublist_blocksOf inBranch).trans (List.sublist_append_left _ _)
      · exact (sublist_blocksOfBranches inBranches).trans (List.sublist_append_right _ _)

end

end Node

/-! ## Reading -/

/-- How many of some blocks have a name. -/
def countBlocks (name : String) (blocks : List (String × List Node)) : Nat :=
  (blocks.map (·.1)).count name

section Reading

variable {name : String}

@[simp] theorem countBlocks_nil : countBlocks name [] = 0 := rfl

@[simp] theorem countBlocks_append (front behind : List (String × List Node)) :
    countBlocks name (front ++ behind) = countBlocks name front + countBlocks name behind := by
  simp [countBlocks]

theorem countBlocks_cons (block : String × List Node) (blocks : List (String × List Node)) :
    countBlocks name (block :: blocks) = [block.1].count name + countBlocks name blocks := by
  rw [countBlocks, List.map_cons, List.count_cons, countBlocks]
  simp [List.count_cons, add_comm]

/-- The order of nodes does not change how many blocks have a name. -/
theorem countBlocks_reverse (nodes : List Node) :
    countBlocks name (Node.blocksOf nodes.reverse) = countBlocks name (Node.blocksOf nodes) := by
  simp only [Node.blocksOf_eq_flatMap, countBlocks]
  exact ((nodes.reverse_perm.flatMap_right _).map _).count_eq _

/-- How many blocks that an open tag holds have a name, the tag itself included. -/
def OpenTag.countBlocks (name : String) : OpenTag → Nat
  | .block opened => [opened].count name
  | .branch earlier _ => Template.countBlocks name (Node.blocksOfBranches earlier)
  | .otherwise branches => Template.countBlocks name (Node.blocksOfBranches branches)
  | .loop _ => 0
  | .empty _ body => Template.countBlocks name (Node.blocksOf body)
  | .comment => 0

/-- How many blocks have a name in what an end tag makes of an open tag. -/
def Ending.countBlocks (name : String) : Ending → Nat
  | .node finished => Template.countBlocks name finished.blocks
  | .next opened => opened.countBlocks name

/-- How many blocks have a name among what has been read, the open ones included. -/
def Reading.countBlocks (name : String) (reading : Reading) : Nat :=
  Template.countBlocks name (Node.blocksOf reading.nodes) +
    (reading.levels.map fun level =>
      level.opened.countBlocks name +
        Template.countBlocks name (Node.blocksOf level.before)).sum

/-- No two blocks that have been read have the same name. -/
structure Reading.IsDistinct (reading : Reading) : Prop where
  /-- A name is noted once. -/
  nodup : reading.blockNames.Nodup
  /-- The name of every block is noted; the names of blocks inside a comment stay noted too. -/
  count_le : ∀ name, reading.countBlocks name ≤ reading.blockNames.count name

/-- An end tag makes up no blocks. -/
theorem OpenTag.countBlocks_finish_le
    {opened : OpenTag}
    {body : List Node}
    {tag : String}
    {arguments : List Char}
    {line : Nat}
    {ending : Ending}
    (finished : opened.finish body tag arguments line = .ok ending) :
    ending.countBlocks name ≤
      opened.countBlocks name + Template.countBlocks name (Node.blocksOf body) := by
  cases opened with
  | block blockName =>
      simp only [finish, endBlock] at finished
      split at finished
      · obtain rfl := Except.ok.inj finished
        simp [Ending.countBlocks, Node.blocks, countBlocks_cons, countBlocks]
      · contradiction
  | branch earlier condition =>
      have collected : Template.countBlocks name
          (Node.blocksOfBranches (earlier ++ [(condition, body)])) =
            countBlocks name (.branch earlier condition) +
              Template.countBlocks name (Node.blocksOf body) := by
        simp [Node.blocksOfBranches_eq_flatMap, countBlocks]
      rw [← collected]
      simp only [finish, endBranch] at finished
      split at finished
      · obtain ⟨further, -, isBranch⟩ := exists_of_bind_eq_ok finished
        obtain rfl := Except.ok.inj isBranch
        exact le_rfl
      · obtain rfl := Except.ok.inj finished
        exact le_rfl
      · obtain rfl := Except.ok.inj finished
        simp [Ending.countBlocks, Node.blocks, Node.blocksOf]
  | otherwise branches =>
      obtain rfl := Except.ok.inj finished
      simp [Ending.countBlocks, Node.blocks, countBlocks]
  | loop header =>
      simp only [finish] at finished
      split at finished
      · obtain rfl := Except.ok.inj finished
        simp [Ending.countBlocks, countBlocks]
      · obtain rfl := Except.ok.inj finished
        simp [Ending.countBlocks, Node.blocks, Node.blocksOf]
  | empty header items =>
      obtain rfl := Except.ok.inj finished
      simp [Ending.countBlocks, Node.blocks, countBlocks]
  | comment =>
      obtain rfl := Except.ok.inj finished
      simp [Ending.countBlocks, Node.blocks]

namespace Reading

variable {reading result : Reading}

theorem isDistinct_start : start.IsDistinct :=
  ⟨List.nodup_nil, by simp [start, countBlocks, Node.blocksOf]⟩

/-- What holds no blocks may be added. -/
theorem IsDistinct.add
    {node : Node}
    (distinct : reading.IsDistinct)
    (noBlocks : node.blocks = []) :
    (reading.add node).IsDistinct := by
  refine ⟨distinct.nodup, fun name => ?_⟩
  simpa [Reading.add, countBlocks, Node.blocksOf, noBlocks] using distinct.count_le name

/-- The blocks that an open tag holds move with it to the open tags. -/
theorem countBlocks_push (opened : OpenTag) :
    (reading.push opened).countBlocks name = opened.countBlocks name + reading.countBlocks name := by
  simp only [push, countBlocks, Node.blocksOf, Template.countBlocks_nil, List.map_cons,
    List.sum_cons]
  omega

/-- A tag that holds no blocks may be opened. -/
theorem IsDistinct.push
    {opened : OpenTag}
    (distinct : reading.IsDistinct)
    (noBlocks : ∀ name, opened.countBlocks name = 0) :
    (reading.push opened).IsDistinct := by
  refine ⟨distinct.nodup, fun name => ?_⟩
  rw [countBlocks_push, noBlocks, Nat.zero_add]
  exact distinct.count_le name

theorem IsDistinct.openBlock
    {arguments : List Char}
    {line : Nat}
    (distinct : reading.IsDistinct)
    (opened : reading.openBlock arguments line = .ok result) :
    result.IsDistinct := by
  simp only [Reading.openBlock] at opened
  split at opened
  · contradiction
  · split at opened
    · contradiction
    · rename_i unused
      obtain rfl := Except.ok.inj opened
      refine ⟨distinct.nodup.cons (by simpa using unused), fun name => ?_⟩
      have noted := distinct.count_le name
      rw [countBlocks_push]
      simp only [Reading.push, OpenTag.countBlocks, List.count_cons, List.count_nil, Nat.zero_add]
      change _ + reading.countBlocks name ≤ _
      omega

theorem IsDistinct.readStart
    {tag : String}
    {arguments : List Char}
    {line : Nat}
    (distinct : reading.IsDistinct)
    (started : reading.readStart tag arguments line = .ok result) :
    result.IsDistinct := by
  unfold Reading.readStart at started
  split at started
  · simp only [readParent] at started
    split at started
    · contradiction
    · split at started
      · contradiction
      · obtain ⟨parent, -, isParent⟩ := exists_of_bind_eq_ok started
        obtain rfl := Except.ok.inj isParent
        exact ⟨distinct.nodup, distinct.count_le⟩
  · exact distinct.openBlock started
  · obtain ⟨condition, -, isBranch⟩ := exists_of_bind_eq_ok started
    obtain rfl := Except.ok.inj isBranch
    exact distinct.push fun name => rfl
  · obtain ⟨header, -, isLoop⟩ := exists_of_bind_eq_ok started
    obtain rfl := Except.ok.inj isLoop
    exact distinct.push fun name => rfl
  · simp only [readInclude] at started
    split at started
    · contradiction
    · obtain ⟨included, -, isInclude⟩ := exists_of_bind_eq_ok started
      obtain rfl := Except.ok.inj isInclude
      exact distinct.add rfl
  · obtain rfl := Except.ok.inj started
    exact distinct.push fun name => rfl
  · contradiction
  · contradiction

theorem IsDistinct.readEnd
    {level : Level}
    {outer : List Level}
    {tag : String}
    {arguments : List Char}
    {line : Nat}
    (distinct : reading.IsDistinct)
    (innermost : reading.levels = level :: outer)
    (ended : reading.readEnd level outer tag arguments line = .ok result) :
    result.IsDistinct := by
  obtain ⟨ending, finished, isResult⟩ := exists_of_bind_eq_ok ended
  have fewer : ∀ name, ending.countBlocks name ≤ level.opened.countBlocks name +
      Template.countBlocks name (Node.blocksOf reading.nodes.reverse) := fun _ =>
    OpenTag.countBlocks_finish_le finished
  cases ending with
  | node node =>
      obtain rfl := Except.ok.inj isResult
      refine ⟨distinct.nodup, fun name => ?_⟩
      have noted := distinct.count_le name
      have bound := fewer name
      simp only [countBlocks, innermost, List.map_cons, List.sum_cons, Node.blocksOf,
        countBlocks_append, countBlocks_reverse, Ending.countBlocks] at noted bound ⊢
      omega
  | next opened =>
      obtain rfl := Except.ok.inj isResult
      refine ⟨distinct.nodup, fun name => ?_⟩
      have noted := distinct.count_le name
      have bound := fewer name
      simp only [countBlocks, innermost, List.map_cons, List.sum_cons, Node.blocksOf,
        countBlocks_nil, countBlocks_reverse, Ending.countBlocks] at noted bound ⊢
      omega

theorem IsDistinct.readPiece
    {piece : Piece}
    (distinct : reading.IsDistinct)
    (read : reading.readPiece piece = .ok result) :
    result.IsDistinct := by
  unfold Reading.readPiece at read
  split at read
  · obtain rfl := Except.ok.inj read
    exact distinct.add rfl
  · obtain rfl := Except.ok.inj read
    exact distinct
  · obtain ⟨next, isNext, begun⟩ := exists_of_bind_eq_ok read
    obtain rfl := Except.ok.inj begun
    simp only [readVariable] at isNext
    split at isNext
    · contradiction
    · obtain ⟨chain, -, isVariable⟩ := exists_of_bind_eq_ok isNext
      obtain rfl := Except.ok.inj isVariable
      have added : (reading.add (.variable chain)).IsDistinct := distinct.add rfl
      exact ⟨added.nodup, added.count_le⟩
  · obtain ⟨next, isNext, begun⟩ := exists_of_bind_eq_ok read
    obtain rfl := Except.ok.inj begun
    have nextDistinct : next.IsDistinct := by
      simp only [readTag] at isNext
      split at isNext
      · exact distinct.readStart isNext
      · rename_i level outer innermost
        split at isNext
        · exact distinct.readEnd innermost isNext
        · exact distinct.readStart isNext
    exact ⟨nextDistinct.nodup, nextDistinct.count_le⟩

end Reading

/-- The blocks of a template that has been read have different names. -/
theorem nodup_blocks_of_parse
    {source : String}
    {template : Template}
    (parsed : parse source = .ok template) :
    (template.blocks.map (·.1)).Nodup := by
  obtain ⟨reading, folded, finished⟩ := exists_of_bind_eq_ok parsed
  have distinct : reading.IsDistinct :=
    Gives.foldlM (fun _ _ _ distinct _ read => distinct.readPiece read) Reading.isDistinct_start
      reading folded
  unfold Reading.finish at finished
  split at finished
  · rename_i closed
    obtain rfl := Except.ok.inj finished
    refine List.nodup_iff_count_le_one.mpr fun name => ?_
    have noted := distinct.count_le name
    have once := List.nodup_iff_count_le_one.mp distinct.nodup name
    have total : reading.countBlocks name =
        countBlocks name (Node.blocksOf reading.nodes.reverse) := by
      simp [Reading.countBlocks, closed, countBlocks_reverse]
    change countBlocks name (Node.blocksOf reading.nodes.reverse) ≤ 1
    omega
  · contradiction

end Reading

end Template
end TemplatedMarkup
