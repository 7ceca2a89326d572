import TemplatedMarkup.Proofs.Template.Block
import TemplatedMarkup.Proofs.Template.Source

/-!
# Reading behind other parts

What has been read of a source may lie in front of what is read next.  Its nodes stay at the start
of the outermost body, and its blocks keep their names from later ones.
-/

namespace TemplatedMarkup
namespace Template

/-- The word of a tag. -/
def Piece.tagName? (piece : Piece) : Option String :=
  match piece.kind with
  | .delimited .tag => some (.ofList (firstWord piece.content))
  | _ => none

/-- The name that a tag gives to a block. -/
def givenName? (tag : String) (arguments : List Char) : Option String :=
  if tag = "block" then some (.ofList arguments) else none

/-- The name that the tag of a block gives to it. -/
def Piece.blockName? (piece : Piece) : Option String :=
  match piece.kind with
  | .delimited .tag =>
      givenName? (.ofList (firstWord piece.content)) (behindFirstWord piece.content)
  | _ => none

/-- The words of the tags of a source. -/
def tagNames (source : String) : List String :=
  (pieces source).filterMap Piece.tagName?

/-- The names that the tags of blocks give in a source, those in comments included. -/
def blockNames (source : String) : List String :=
  (pieces source).filterMap Piece.blockName?

namespace Reading

variable {reading next base : Reading} {piece : Piece}

/-! ## What a piece adds -/

/-- What is noted of a tag, if there is one, and of the name that it gives to a block. -/
structure Notes (tag name : Option String) (reading next : Reading) : Prop where
  /-- The name of a block is noted. -/
  blockNames_eq : next.blockNames = name.toList ++ reading.blockNames
  /-- Only one tag names a parent. -/
  parent_eq : tag ≠ some "extends" → next.parent = reading.parent

theorem notes_of_readStart
    {tag : String}
    {arguments : List Char}
    {line : Nat}
    (started : reading.readStart tag arguments line = .ok next) :
    Notes (some tag) (givenName? tag arguments) reading next := by
  unfold readStart at started
  split at started
  · simp only [readParent] at started
    split at started
    · contradiction
    · split at started
      · contradiction
      · obtain ⟨parent, -, isParent⟩ := exists_of_bind_eq_ok started
        obtain rfl := Except.ok.inj isParent
        exact ⟨rfl, fun other => absurd rfl other⟩
  · simp only [openBlock] at started
    split at started
    · contradiction
    · split at started
      · contradiction
      · obtain rfl := Except.ok.inj started
        exact ⟨rfl, fun _ => rfl⟩
  · obtain ⟨condition, -, isBranch⟩ := exists_of_bind_eq_ok started
    obtain rfl := Except.ok.inj isBranch
    exact ⟨rfl, fun _ => rfl⟩
  · obtain ⟨header, -, isLoop⟩ := exists_of_bind_eq_ok started
    obtain rfl := Except.ok.inj isLoop
    exact ⟨rfl, fun _ => rfl⟩
  · simp only [readInclude] at started
    split at started
    · contradiction
    · obtain ⟨included, -, isInclude⟩ := exists_of_bind_eq_ok started
      obtain rfl := Except.ok.inj isInclude
      exact ⟨rfl, fun _ => rfl⟩
  · obtain rfl := Except.ok.inj started
    exact ⟨rfl, fun _ => rfl⟩
  · contradiction
  · contradiction

/-- No end tag is the tag of a block. -/
theorem OpenTag.ne_block_of_mem_ends
    {opened : OpenTag}
    {tag : String}
    (ends : tag ∈ opened.ends) :
    tag ≠ "block" := by
  rintro rfl
  cases opened <;> simp [OpenTag.ends] at ends

theorem notes_of_readTag
    {content : List Char}
    {line : Nat}
    (read : reading.readTag content line = .ok next) :
    Notes (some (.ofList (firstWord content)))
      (givenName? (.ofList (firstWord content)) (behindFirstWord content)) reading next := by
  unfold readTag at read
  simp only at read
  split at read
  · exact notes_of_readStart read
  · rename_i level outer _
    split at read
    · rename_i isEnd
      rw [givenName?, if_neg (OpenTag.ne_block_of_mem_ends (List.contains_iff_mem.mp isEnd))]
      obtain ⟨ending, -, isNext⟩ := exists_of_bind_eq_ok read
      cases ending with
      | node node =>
          obtain rfl := Except.ok.inj isNext
          exact ⟨rfl, fun _ => rfl⟩
      | next opened =>
          obtain rfl := Except.ok.inj isNext
          exact ⟨rfl, fun _ => rfl⟩
    · exact notes_of_readStart read

theorem notes_of_readPiece
    (read : reading.readPiece piece = .ok next) :
    Notes piece.tagName? piece.blockName? reading next := by
  obtain ⟨kind, content, line⟩ := piece
  cases kind with
  | text =>
      obtain rfl := Except.ok.inj read
      exact ⟨rfl, fun _ => rfl⟩
  | delimited kind =>
      cases kind with
      | comment =>
          obtain rfl := Except.ok.inj read
          exact ⟨rfl, fun _ => rfl⟩
      | «variable» =>
          obtain ⟨added, isAdded, begun⟩ := exists_of_bind_eq_ok read
          obtain rfl := Except.ok.inj begun
          simp only [readVariable] at isAdded
          split at isAdded
          · contradiction
          · obtain ⟨chain, -, isVariable⟩ := exists_of_bind_eq_ok isAdded
            obtain rfl := Except.ok.inj isVariable
            exact ⟨rfl, fun _ => rfl⟩
      | tag =>
          obtain ⟨tagged, isTagged, begun⟩ := exists_of_bind_eq_ok read
          obtain rfl := Except.ok.inj begun
          have noted := notes_of_readTag isTagged
          exact ⟨noted.blockNames_eq, noted.parent_eq⟩

/-- All names of blocks are noted, and a parent is only named by a tag. -/
theorem notes_of_foldlM_readPiece
    {pieces : List Piece}
    (folded : pieces.foldlM readPiece reading = .ok next) :
    next.blockNames = (pieces.filterMap Piece.blockName?).reverse ++ reading.blockNames ∧
      (some "extends" ∉ pieces.map Piece.tagName? → next.parent = reading.parent) := by
  induction pieces generalizing reading with
  | nil =>
      obtain rfl := Except.ok.inj folded
      exact ⟨rfl, fun _ => rfl⟩
  | cons piece pieces inductionHypothesis =>
      rw [List.foldlM_cons] at folded
      obtain ⟨middle, read, rest⟩ := exists_of_bind_eq_ok folded
      have first := notes_of_readPiece read
      obtain ⟨others, sameParent⟩ := inductionHypothesis rest
      constructor
      · rw [others, first.blockNames_eq]
        cases name : piece.blockName? <;> simp [name]
      · intro noParent
        rw [List.map_cons, List.mem_cons, not_or] at noParent
        rw [sameParent noParent.2, first.parent_eq (Ne.symm noParent.1)]

/-! ## What lies in front -/

/-- A body inside open tags, behind nodes of the outermost body. -/
def bodyOnto (nodes : List Node) (around : List Level) (body : List Node) : List Node :=
  if around.isEmpty then body ++ nodes else body

/-- Open tags behind nodes of the outermost body. -/
def levelsOnto (nodes : List Node) : List Level → List Level
  | [] => []
  | level :: outer => ⟨level.opened, bodyOnto nodes outer level.before⟩ :: levelsOnto nodes outer

/-- What is read behind something else, all tags of which are closed. -/
def onto (reading base : Reading) : Reading where
  parent := reading.parent.or base.parent
  started := base.started || reading.started
  blockNames := reading.blockNames ++ base.blockNames
  levels := levelsOnto base.nodes reading.levels
  nodes := bodyOnto base.nodes reading.levels reading.nodes

@[simp] theorem bodyOnto_cons
    (nodes body : List Node)
    (around : List Level)
    (node : Node) :
    bodyOnto nodes around (node :: body) = node :: bodyOnto nodes around body := by
  unfold bodyOnto
  split <;> rfl

theorem start_onto
    (outermost : base.levels = []) :
    start.onto base = base := by
  obtain ⟨parent, started, blockNames, levels, nodes⟩ := base
  obtain rfl : levels = [] := outermost
  simp [onto, start, bodyOnto, levelsOnto]

theorem add_onto (node : Node) :
    (reading.add node).onto base = (reading.onto base).add node := by
  simp [add, onto]

theorem push_onto (opened : OpenTag) :
    (reading.push opened).onto base = (reading.onto base).push opened := by
  simp [push, onto, levelsOnto, bodyOnto]

theorem begin_onto : reading.begin.onto base = (reading.onto base).begin := by
  simp [begin, onto]

/-- A piece may be read behind what is in front: it names no parent and no block that is there. -/
structure MayFollow (base : Reading) (piece : Piece) : Prop where
  /-- A parent is only named at the start. -/
  parent : base.started = true → piece.tagName? ≠ some "extends"
  /-- A block has a new name. -/
  block : ∀ name ∈ piece.blockName?, name ∉ base.blockNames

section Tags

variable {arguments : List Char} {line : Nat}

theorem readParent_onto
    (fresh : base.started = false) :
    (reading.onto base).readParent arguments line =
      (·.onto base) <$> reading.readParent arguments line := by
  have sameStart : (reading.onto base).started = reading.started := by simp [onto, fresh]
  unfold readParent
  rw [sameStart]
  split
  · rfl
  · split
    · rfl
    · simp only [map_bind, map_pure]
      exact bind_congr fun parent => by simp [onto, fresh]

theorem openBlock_onto
    (new : String.ofList arguments ∉ base.blockNames) :
    (reading.onto base).openBlock arguments line =
      (·.onto base) <$> reading.openBlock arguments line := by
  have sameNames : (reading.onto base).blockNames.contains (String.ofList arguments) =
      reading.blockNames.contains (String.ofList arguments) := by
    simp [onto, new]
  unfold openBlock
  simp only [sameNames]
  split
  · rfl
  · split
    · rfl
    · let named : Reading :=
        { reading with blockNames := String.ofList arguments :: reading.blockNames }
      exact congrArg Except.ok (@push_onto named base _).symm

theorem readInclude_onto :
    (reading.onto base).readInclude arguments line =
      (·.onto base) <$> reading.readInclude arguments line := by
  unfold readInclude
  split
  · rfl
  · simp only [map_bind, map_pure, add_onto]

theorem readStart_onto
    {tag : String}
    (parent : base.started = true → tag ≠ "extends")
    (block : tag = "block" → String.ofList arguments ∉ base.blockNames) :
    (reading.onto base).readStart tag arguments line =
      (·.onto base) <$> reading.readStart tag arguments line := by
  unfold readStart
  split
  · refine readParent_onto ?_
    cases started : base.started with
    | false => rfl
    | true => exact absurd rfl (parent started)
  · exact openBlock_onto (block rfl)
  · simp only [map_bind, map_pure, push_onto]
  · simp only [map_bind, map_pure, push_onto]
  · exact readInclude_onto
  · exact congrArg Except.ok (push_onto _).symm
  · rfl
  · rfl

theorem readEnd_onto
    {level : Level}
    {outer : List Level}
    {tag : String}
    (innermost : reading.levels = level :: outer) :
    (reading.onto base).readEnd ⟨level.opened, bodyOnto base.nodes outer level.before⟩
        (levelsOnto base.nodes outer) tag arguments line =
      (·.onto base) <$> reading.readEnd level outer tag arguments line := by
  have sameNodes : (reading.onto base).nodes = reading.nodes := by
    simp [onto, bodyOnto, innermost]
  unfold readEnd
  rw [sameNodes, map_bind]
  refine bind_congr fun ending => ?_
  cases ending with
  | node node => simp [onto]
  | next opened => simp [onto, levelsOnto, bodyOnto]

theorem readTag_onto
    {content : List Char}
    (parent : base.started = true → String.ofList (firstWord content) ≠ "extends")
    (block : String.ofList (firstWord content) = "block" →
      String.ofList (behindFirstWord content) ∉ base.blockNames) :
    (reading.onto base).readTag content line =
      (·.onto base) <$> reading.readTag content line := by
  unfold readTag
  simp only
  cases innermost : reading.levels with
  | nil =>
      have none : (reading.onto base).levels = [] := by simp [onto, innermost, levelsOnto]
      rw [none]
      exact readStart_onto parent block
  | cons level outer =>
      have same : (reading.onto base).levels =
          ⟨level.opened, bodyOnto base.nodes outer level.before⟩ ::
            levelsOnto base.nodes outer := by
        simp [onto, innermost, levelsOnto]
      rw [same]
      simp only
      split
      · exact readEnd_onto innermost
      · exact readStart_onto parent block

end Tags

theorem readVariable_onto {content : List Char} {line : Nat} :
    (reading.onto base).readVariable content line =
      (·.onto base) <$> reading.readVariable content line := by
  unfold readVariable
  simp only
  split
  · rfl
  · simp only [map_bind, map_pure, add_onto]

/-- A piece is read behind other parts as it is read on its own. -/
theorem readPiece_onto
    (follows : base.MayFollow piece) :
    (reading.onto base).readPiece piece = (·.onto base) <$> reading.readPiece piece := by
  obtain ⟨parent, block⟩ := follows
  obtain ⟨kind, content, line⟩ := piece
  unfold readPiece
  cases kind with
  | text => exact congrArg Except.ok (add_onto _).symm
  | delimited kind =>
      cases kind with
      | comment => rfl
      | «variable» =>
          simp only [map_bind, map_pure, readVariable_onto, bind_map_left, begin_onto]
      | tag =>
          have tagRead := @readTag_onto reading base line content
            (by simpa [Piece.tagName?] using parent)
            (fun isBlock => block _ (by simp [Piece.blockName?, givenName?, isBlock]))
          simp only [map_bind, map_pure, tagRead, bind_map_left, begin_onto]

/-- Pieces are read behind other parts as they are read on their own. -/
theorem foldlM_readPiece_onto
    {pieces : List Piece}
    (follow : ∀ piece ∈ pieces, base.MayFollow piece)
    (reading : Reading) :
    pieces.foldlM readPiece (reading.onto base) =
      (·.onto base) <$> pieces.foldlM readPiece reading := by
  induction pieces generalizing reading with
  | nil => rfl
  | cons piece pieces inductionHypothesis =>
      rw [List.forall_mem_cons] at follow
      rw [List.foldlM_cons, List.foldlM_cons, readPiece_onto follow.1, bind_map_left, map_bind]
      exact bind_congr fun next => inductionHypothesis follow.2 next

/-- Behind parts that leave no tag open, pieces are read as they are from the start on. -/
theorem foldlM_readPiece_eq_onto
    {pieces : List Piece}
    (outermost : base.levels = [])
    (follow : ∀ piece ∈ pieces, base.MayFollow piece) :
    pieces.foldlM readPiece base = (·.onto base) <$> pieces.foldlM readPiece start := by
  rw [← foldlM_readPiece_onto follow, start_onto outermost]

theorem levels_onto_eq_nil_iff : (reading.onto base).levels = [] ↔ reading.levels = [] := by
  rw [onto]
  cases reading.levels <;> simp [levelsOnto]

end Reading
end Template
end TemplatedMarkup
