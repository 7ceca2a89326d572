import Mathlib
import TemplatedMarkup.Text.Case

/-!
# What changing the case brings in

The forms of a character in the other case are letters and marks, all of them from `A` on.  So a
text in another case holds no digit, no quote and no bracket of ASCII that the text does not hold.
-/

namespace TemplatedMarkup
namespace Text

/-- The visible characters before the letters: digits, quotes, brackets of tags and the like. -/
structure IsMark (character : Char) : Prop where
  /-- It is not the replacement of an invalid code point. -/
  pos : 0 < character.toNat
  /-- It comes before the letters. -/
  lt : character.toNat < 65

/-- A code point from `A` on is no mark. -/
theorem IsMark.ne_ofNat
    {mark : Char}
    (isMark : IsMark mark)
    {code : Nat}
    (letter : 65 ≤ code) :
    mark ≠ Char.ofNat code := by
  rintro rfl
  have pos := isMark.pos
  have lt := isMark.lt
  rw [Char.toNat_ofNat] at pos lt
  by_cases valid : code.isValidChar
  · rw [if_pos valid] at lt
    omega
  · rw [if_neg valid] at pos
    omega

/-- A run that starts at a bound or above, when it is moved, has no image below it. -/
theorem le_of_imageInRuns
    {runs : List CaseRun}
    {bound code image : Nat}
    (above : runs.all (fun run => (bound : Int) ≤ run.range.first + run.shift) = true)
    (found : imageInRuns runs code = some image) :
    bound ≤ image := by
  induction runs with
  | nil => simp [imageInRuns] at found
  | cons run runs inductionHypothesis =>
      simp only [List.all_cons, Bool.and_eq_true, decide_eq_true_eq] at above
      unfold imageInRuns at found
      split at found
      · contradiction
      · split at found
        · obtain rfl := Option.some.inj found
          omega
        · exact inductionHypothesis above.2 found

section Forms

variable
  {mark character : Char}
  (isMark : IsMark mark)
include isMark

/-- A mark is only a case form of itself. -/
theorem eq_of_mem_caseForm
    {expansions : List (Nat × List Nat)}
    {runs : List CaseRun}
    (expanded : expansions.all (fun entry => entry.2.all (65 ≤ ·)) = true)
    (moved : runs.all (fun run => (65 : Int) ≤ run.range.first + run.shift) = true)
    (among : mark ∈ caseForm expansions runs character) :
    mark = character := by
  unfold caseForm at among
  split at among
  · rename_i codes found
    obtain ⟨before, after, split, -⟩ := List.lookup_eq_some_iff.mp found
    obtain ⟨code, isCode, rfl⟩ := List.mem_map.mp among
    have letters := List.all_eq_true.mp expanded (character.toNat, codes) (by simp [split])
    have letter := List.all_eq_true.mp letters code isCode
    exact absurd rfl (isMark.ne_ofNat (by simpa using letter))
  · split at among
    · rename_i code found
      rw [List.mem_singleton] at among
      exact absurd among (isMark.ne_ofNat (le_of_imageInRuns moved found))
    · exact List.mem_singleton.mp among

/-- Among the characters of ASCII only letters have another case. -/
theorem eq_of_eq_asciiForm
    {form : Char → Char}
    (letters : ∀ code < 128, form (Char.ofNat code) = Char.ofNat code ∨
      65 ≤ (form (Char.ofNat code)).toNat)
    (ascii : character.toNat < 128)
    (isForm : mark = form character) :
    mark = character := by
  have either := letters character.toNat ascii
  rw [Char.ofNat_toNat, ← isForm] at either
  rcases either with same | letter
  · exact same
  · have lt := isMark.lt
    omega

theorem eq_of_mem_upperForm (among : mark ∈ upperForm character) : mark = character := by
  unfold upperForm at among
  split at among
  · rename_i ascii
    exact eq_of_eq_asciiForm isMark (by decide) ascii (List.mem_singleton.mp among)
  · exact eq_of_mem_caseForm isMark (by decide +kernel) (by decide +kernel) among

theorem eq_of_mem_lowerForm (among : mark ∈ lowerForm character) : mark = character := by
  unfold lowerForm at among
  split at among
  · rename_i ascii
    exact eq_of_eq_asciiForm isMark (by decide) ascii (List.mem_singleton.mp among)
  · exact eq_of_mem_caseForm isMark (by decide +kernel) (by decide +kernel) among

theorem mem_of_mem_upper
    {text : List Char}
    (among : mark ∈ upper text) :
    mark ∈ text := by
  obtain ⟨character, inText, isForm⟩ := List.mem_flatMap.mp among
  rwa [eq_of_mem_upperForm isMark isForm]

theorem mem_of_mem_upperFirst
    {text : List Char}
    (among : mark ∈ upperFirst text) :
    mark ∈ text := by
  cases text with
  | nil => exact among
  | cons first rest =>
      rcases List.mem_append.mp among with isForm | inRest
      · simp [eq_of_mem_upperForm isMark isForm]
      · simp [inRest]

theorem ne_lowerSigma (before after : List Char) : mark ≠ lowerSigma before after := by
  unfold lowerSigma
  split
  · exact isMark.ne_ofNat (show 65 ≤ 962 by decide)
  · exact isMark.ne_ofNat (show 65 ≤ 963 by decide)

theorem mem_of_mem_lowerFrom
    {before done text : List Char}
    (among : mark ∈ lowerFrom before done text) :
    mark ∈ done ∨ mark ∈ text := by
  induction text generalizing before done with
  | nil => exact .inl (List.mem_reverse.mp among)
  | cons character rest inductionHypothesis =>
      rcases inductionHypothesis among with inFront | inRest
      · rcases List.mem_append.mp inFront with inForm | inDone
        · rw [List.mem_reverse] at inForm
          split at inForm
          · exact absurd (List.mem_singleton.mp inForm) (ne_lowerSigma isMark before rest)
          · exact .inr (by simp [eq_of_mem_lowerForm isMark inForm])
        · exact .inl inDone
      · exact .inr (List.mem_cons_of_mem character inRest)

theorem mem_of_mem_lower
    {text : List Char}
    (among : mark ∈ lower text) :
    mark ∈ text := by
  simpa using mem_of_mem_lowerFrom isMark among

theorem mem_of_mem_titleFrom
    {afterLetter : Bool}
    {done text : List Char}
    (among : mark ∈ titleFrom afterLetter done text) :
    mark ∈ done ∨ mark ∈ text := by
  induction text generalizing afterLetter done with
  | nil => exact .inl (List.mem_reverse.mp among)
  | cons character rest inductionHypothesis =>
      unfold titleFrom at among
      split at among
      · rcases inductionHypothesis among with inFront | inRest
        · rcases List.mem_append.mp inFront with inForm | inDone
          · rw [List.mem_reverse] at inForm
            split at inForm
            · exact .inr (by simp [eq_of_mem_lowerForm isMark inForm])
            · exact .inr (by simp [eq_of_mem_upperForm isMark inForm])
          · exact .inl inDone
        · exact .inr (List.mem_cons_of_mem character inRest)
      · rcases inductionHypothesis among with inFront | inRest
        · rcases List.mem_cons.mp inFront with rfl | inDone
          · exact .inr (by simp)
          · exact .inl inDone
        · exact .inr (List.mem_cons_of_mem character inRest)

theorem mem_of_mem_title
    {text : List Char}
    (among : mark ∈ title text) :
    mark ∈ text := by
  simpa using mem_of_mem_titleFrom isMark among

end Forms

end Text
end TemplatedMarkup
