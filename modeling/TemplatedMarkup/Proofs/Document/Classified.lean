import Mathlib
import TemplatedMarkup.Document.Markup

/-!
# Classified links

The classifier is asked about the targets of the links one after the other, and its answers decide
only between a figure and an anchor.  So what it is asked about does not depend on its answers.
-/

namespace TemplatedMarkup
namespace Document

variable {isImage : Classifier} {parts : List Inline}

/-- The text of a part when it is known what is an image. -/
def Inline.render (isImage : Classifier) : Inline → List Char
  | .character value => [value]
  | .link label target =>
      if !target.isEmpty && isImage (.ofList target) then figure label target
      else anchor label target

/-- The target of a part, if there is one to ask about. -/
def Inline.target? : Inline → Option String
  | .character _ => none
  | .link _ target => if target.isEmpty then none else some (.ofList target)

theorem Inline.run_renderWith_pure (part : Inline) :
    Id.run (part.renderWith fun target => pure (isImage target)) = part.render isImage := by
  cases part with
  | character value => rfl
  | link label target =>
      simp only [Inline.renderWith, Inline.render]
      cases target.isEmpty with
      | true => rfl
      | false => cases isImage (.ofList target) <;> rfl

@[simp]
theorem run_noting
    (target : String)
    (noted : List String) :
    (noting isImage target).run noted = pure (isImage target, noted ++ [target]) :=
  rfl

/-- A part shows what its target is classified as, and asks about its target only. -/
theorem Inline.run_renderWith_noting
    (part : Inline)
    (noted : List String) :
    (part.renderWith (noting isImage)).run noted =
      pure (part.render isImage, noted ++ part.target?.toList) := by
  cases part with
  | character value => simp [Inline.renderWith, Inline.render, Inline.target?]
  | link label target =>
      by_cases empty : target.isEmpty
      · simp [Inline.renderWith, Inline.render, Inline.target?, empty]
      · cases answer : isImage (.ofList target) <;>
          simp [Inline.renderWith, Inline.render, Inline.target?, empty, answer]

theorem run_mapM_renderWith_noting (noted : List String) :
    (parts.mapM fun part : Inline => part.renderWith (noting isImage)).run noted =
      pure (parts.map (·.render isImage), noted ++ parts.filterMap Inline.target?) := by
  induction parts generalizing noted with
  | nil => simp
  | cons part parts inductionHypothesis =>
      simp only [List.mapM_cons, StateT.run_bind, StateT.run_pure, part.run_renderWith_noting,
        inductionHypothesis, pure_bind]
      cases target : part.target? <;> simp [target]

theorem transform_eq (body : String) :
    transform body isImage =
      .ofList ((inlines (convertSpansAndLines body.toList)).flatMap (·.render isImage)) := by
  have rendered : Id.run ((inlines (convertSpansAndLines body.toList)).mapM fun part : Inline =>
      part.renderWith fun target => pure (isImage target)) =
        (inlines (convertSpansAndLines body.toList)).map (·.render isImage) := by
    rw [List.idRun_mapM]
    exact List.map_congr_left fun part _ => part.run_renderWith_pure
  rw [transform, transformWith, Id.run_bind, rendered]
  rfl

theorem run_transformWith_noting
    (body : String)
    (noted : List String) :
    (transformWith (noting isImage) body).run noted =
      (transform body isImage,
        noted ++ (inlines (convertSpansAndLines body.toList)).filterMap Inline.target?) := by
  rw [transformWith, StateT.run_bind, run_mapM_renderWith_noting, transform_eq, List.flatMap_def]
  rfl

theorem linkTargets_eq (body : String) :
    linkTargets body =
      (inlines (convertSpansAndLines body.toList)).filterMap Inline.target? := by
  rw [linkTargets, run_transformWith_noting]
  rfl

/-- What the classifier is asked about does not depend on its answers. -/
theorem run_transformWith_noting_eq_linkTargets
    (body : String)
    (isImage : Classifier) :
    (transformWith (noting isImage) body).run [] = (transform body isImage, linkTargets body) := by
  rw [run_transformWith_noting, linkTargets_eq]
  rfl

end Document
end TemplatedMarkup
