import TemplatedMarkup.Proofs.Outcome
import TemplatedMarkup.Template.Parser

/-!
# Sources that are no templates

A source that cannot be read is refused as malformed, whatever is wrong with it.
-/

namespace TemplatedMarkup

/-- A source is no template, or it names a filter that does not exist. -/
def TemplateError.IsMalformed (cause : TemplateError) : Prop :=
  ∃ message, cause = .malformed message

theorem TemplateError.isMalformed_onLine (line : Nat) (message : String) :
    (onLine line message).IsMalformed :=
  ⟨_, rfl⟩

namespace Template

open TemplateError (IsMalformed isMalformed_onLine)

/-! ## Chains and tags -/

section Tags

variable (text : List Char) (line : Nat)

theorem failsWith_readOperand : FailsWith IsMalformed (readOperand text line) := by
  simp only [readOperand]
  split
  · exact .ok _
  · split
    · exact .ok _
    · exact .error (isMalformed_onLine _ _)

theorem failsWith_readFilter : FailsWith IsMalformed (readFilter line text) := by
  simp only [readFilter]
  split
  · split
    · exact .ok _
    · exact (failsWith_readOperand _ _).bind fun _ _ => .ok _
  · exact .error (isMalformed_onLine _ _)

theorem failsWith_readChain : FailsWith IsMalformed (readChain text line) :=
  (failsWith_readOperand _ _).bind fun _ _ =>
    (FailsWith.mapM (failsWith_readFilter · line) _).bind fun _ _ => .ok _

theorem failsWith_readCondition : FailsWith IsMalformed (readCondition text line) := by
  rw [readCondition]
  split
  · exact .error (isMalformed_onLine _ _)
  · refine (FailsWith.mapError (fun _ => isMalformed_onLine _ _) _).bind fun _ _ => ?_
    refine FailsWith.mapError (fun cause => ?_) _
    cases cause <;> exact isMalformed_onLine _ _

theorem failsWith_readLoop : FailsWith IsMalformed (readLoop text line) := by
  simp only [readLoop]
  split
  · exact .error (isMalformed_onLine _ _)
  · refine (failsWith_readChain _ _).bind fun _ _ => ?_
    split
    · exact .ok _
    · exact .error (isMalformed_onLine _ _)

theorem failsWith_finish (opened : OpenTag) (body : List Node) (tag : String) :
    FailsWith IsMalformed (opened.finish body tag text line) := by
  cases opened with
  | block name =>
      simp only [OpenTag.finish, OpenTag.endBlock]
      split
      · exact .ok _
      · exact .error (isMalformed_onLine _ _)
  | branch earlier condition =>
      simp only [OpenTag.finish, OpenTag.endBranch]
      split
      · exact (failsWith_readCondition _ _).bind fun _ _ => .ok _
      · exact .ok _
      · exact .ok _
  | loop header =>
      simp only [OpenTag.finish]
      split <;> exact .ok _
  | otherwise _ | empty _ _ | comment => exact .ok _

end Tags

/-! ## Templates -/

namespace Reading

variable (reading : Reading) (content : List Char) (line : Nat)

theorem failsWith_readStart (tag : String) :
    FailsWith IsMalformed (reading.readStart tag content line) := by
  unfold readStart
  split
  · rw [readParent]
    split
    · exact .error (isMalformed_onLine _ _)
    · split
      · exact .error (isMalformed_onLine _ _)
      · exact (failsWith_readChain _ _).bind fun _ _ => .ok _
  · simp only [openBlock]
    split
    · exact .error (isMalformed_onLine _ _)
    · split
      · exact .error (isMalformed_onLine _ _)
      · exact .ok _
  · exact (failsWith_readCondition _ _).bind fun _ _ => .ok _
  · exact (failsWith_readLoop _ _).bind fun _ _ => .ok _
  · rw [readInclude]
    split
    · exact .error (isMalformed_onLine _ _)
    · exact (failsWith_readChain _ _).bind fun _ _ => .ok _
  · exact .ok _
  · exact .error (isMalformed_onLine _ _)
  · exact .error (isMalformed_onLine _ _)

theorem failsWith_readTag : FailsWith IsMalformed (reading.readTag content line) := by
  simp only [readTag]
  split
  · exact reading.failsWith_readStart _ _ _
  · split
    · refine (failsWith_finish _ _ _ _ _).bind fun ending _ => ?_
      cases ending <;> exact .ok _
    · exact reading.failsWith_readStart _ _ _

theorem failsWith_readVariable : FailsWith IsMalformed (reading.readVariable content line) := by
  simp only [readVariable]
  split
  · exact .error (isMalformed_onLine _ _)
  · exact (failsWith_readChain _ _).bind fun _ _ => .ok _

theorem failsWith_readPiece (piece : Piece) :
    FailsWith IsMalformed (reading.readPiece piece) := by
  unfold readPiece
  split
  · exact .ok _
  · exact .ok _
  · exact (reading.failsWith_readVariable _ _).bind fun _ _ => .ok _
  · exact (reading.failsWith_readTag _ _).bind fun _ _ => .ok _

end Reading

/-- A source that is no template is refused as malformed. -/
theorem failsWith_parse (source : String) : FailsWith IsMalformed (parse source) := by
  refine (FailsWith.foldlM (fun piece _ => (·.failsWith_readPiece piece)) _).bind
    fun reading _ => ?_
  unfold Reading.finish
  split
  · exact .ok _
  · exact .error ⟨_, rfl⟩

end Template
end TemplatedMarkup
