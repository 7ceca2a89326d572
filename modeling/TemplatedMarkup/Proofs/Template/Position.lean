import TemplatedMarkup.Proofs.Outcome
import TemplatedMarkup.Template.Parser

/-!
# Positions of tags

The line of a tag is only named in errors.  What is read on one line is read on every other.
-/

namespace TemplatedMarkup

/-- A computation that only has other causes succeeds with it. -/
theorem Refines.mapError
    {Cause OtherCause Value : Type}
    (change other : OtherCause → Cause)
    (outcome : Except OtherCause Value) :
    Refines (outcome.mapError change) (outcome.mapError other) := by
  intro value succeeds
  rw [eq_ok_of_mapError_eq_ok succeeds]
  rfl

namespace Template

section Chains

variable (line other : Nat)

theorem refines_readOperand (text : List Char) :
    Refines (readOperand text line) (readOperand text other) := by
  unfold readOperand
  simp only
  split
  · exact .refl _
  · split
    · exact .refl _
    · exact .error _ _

theorem refines_readFilter (part : List Char) :
    Refines (readFilter line part) (readFilter other part) := by
  unfold readFilter
  simp only
  split
  · split
    · exact .refl _
    · exact (refines_readOperand line other _).bind fun _ _ => .refl _
  · exact .error _ _

theorem refines_readChain (text : List Char) :
    Refines (readChain text line) (readChain text other) :=
  (refines_readOperand line other _).bind fun _ _ =>
    (Refines.mapM (refines_readFilter line other) _).bind fun _ _ => .refl _

theorem refines_readCondition (source : List Char) :
    Refines (readCondition source line) (readCondition source other) := by
  unfold readCondition
  split
  · exact .error _ _
  · exact (Refines.mapError _ _ _).bind fun _ _ => .mapError _ _ _

theorem refines_readLoop (arguments : List Char) :
    Refines (readLoop arguments line) (readLoop arguments other) := by
  unfold readLoop
  simp only
  split
  · exact .error _ _
  · refine (refines_readChain line other _).bind fun chain _ => ?_
    split
    · exact .refl _
    · exact .error _ _

end Chains

theorem OpenTag.refines_finish
    (line other : Nat)
    (opened : OpenTag)
    (body : List Node)
    (tag : String)
    (arguments : List Char) :
    Refines (opened.finish body tag arguments line) (opened.finish body tag arguments other) := by
  cases opened with
  | block name =>
      simp only [finish, endBlock]
      split
      · exact .refl _
      · exact .error _ _
  | branch earlier condition =>
      simp only [finish, endBranch]
      split
      · exact (refines_readCondition line other _).bind fun _ _ => .refl _
      · exact .refl _
      · exact .refl _
  | otherwise _ => exact .refl _
  | loop _ => exact .refl _
  | empty _ _ => exact .refl _
  | comment => exact .refl _

namespace Reading

variable (reading : Reading) (line other : Nat)

theorem refines_readStart (tag : String) (arguments : List Char) :
    Refines (reading.readStart tag arguments line) (reading.readStart tag arguments other) := by
  unfold readStart
  split
  · unfold readParent
    split
    · exact .error _ _
    · split
      · exact .error _ _
      · exact (refines_readChain line other _).bind fun _ _ => .refl _
  · unfold openBlock
    simp only
    split
    · exact .error _ _
    · split
      · exact .error _ _
      · exact .refl _
  · exact (refines_readCondition line other _).bind fun _ _ => .refl _
  · exact (refines_readLoop line other _).bind fun _ _ => .refl _
  · unfold readInclude
    split
    · exact .error _ _
    · exact (refines_readChain line other _).bind fun _ _ => .refl _
  · exact .refl _
  · exact .error _ _
  · exact .error _ _

theorem refines_readTag (content : List Char) :
    Refines (reading.readTag content line) (reading.readTag content other) := by
  unfold readTag
  simp only
  split
  · exact refines_readStart _ _ _ _ _
  · split
    · exact (OpenTag.refines_finish _ _ _ _ _ _).bind fun _ _ => .refl _
    · exact refines_readStart _ _ _ _ _

theorem refines_readVariable (content : List Char) :
    Refines (reading.readVariable content line) (reading.readVariable content other) := by
  unfold readVariable
  simp only
  split
  · exact .error _ _
  · exact (refines_readChain line other _).bind fun _ _ => .refl _

/-- What is read of a piece does not depend on its line. -/
theorem refines_readPiece
    {piece moved : Piece}
    (sameKind : moved.kind = piece.kind)
    (sameContent : moved.content = piece.content) :
    Refines (reading.readPiece piece) (reading.readPiece moved) := by
  unfold readPiece
  rw [sameKind, sameContent]
  split
  · exact .refl _
  · exact .refl _
  · exact (refines_readVariable _ _ _ _).bind fun _ _ => .refl _
  · exact (refines_readTag _ _ _ _).bind fun _ _ => .refl _

end Reading

/-- A piece without its line. -/
def Piece.unplaced (piece : Piece) : PieceKind × List Char :=
  (piece.kind, piece.content)

/-- Pieces are read as the same pieces on other lines are. -/
theorem refines_foldlM_readPiece
    {front behind : List Piece}
    (same : front.map Piece.unplaced = behind.map Piece.unplaced)
    (reading : Reading) :
    Refines (front.foldlM Reading.readPiece reading)
      (behind.foldlM Reading.readPiece reading) := by
  induction front generalizing behind reading with
  | nil =>
      obtain rfl := List.map_eq_nil_iff.mp same.symm
      exact .refl _
  | cons piece front inductionHypothesis =>
      obtain ⟨moved, others, rfl, samePiece, sameOthers⟩ := List.map_eq_cons_iff.mp same.symm
      obtain ⟨sameKind, sameContent⟩ := Prod.mk.inj samePiece
      rw [List.foldlM_cons, List.foldlM_cons]
      exact (reading.refines_readPiece sameKind sameContent).bind fun next _ =>
        inductionHypothesis sameOthers.symm next

end Template
end TemplatedMarkup
