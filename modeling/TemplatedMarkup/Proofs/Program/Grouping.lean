import TemplatedMarkup.Proofs.Program.LogicalLine

/-!
# Grouping line by line

Each physical line ends a logical line or leaves one open, so a program is grouped in front of any
of its lines before the line is read.
-/

namespace TemplatedMarkup
namespace LogicalLine

open Text

/--
What becomes of a physical line: the logical line that it ends, and the one that it leaves open.
-/
def take (number : Nat) (pending : Option LogicalLine) (line : List Char) :
    Option LogicalLine × Option LogicalLine :=
  if pending.isNone && isSkipped line then (none, none)
  else
    let start := pending.getD ⟨number, []⟩
    let (text, open?) := extend start.text line
    if open? then (none, some ⟨start.number, text⟩) else (some ⟨start.number, text⟩, none)

/-- The logical lines that physical lines end, and the one that they leave open. -/
def gather (number : Nat) (pending : Option LogicalLine) :
    List (List Char) → List LogicalLine × Option LogicalLine
  | [] => ([], pending)
  | line :: lines =>
      let taken := take number pending line
      let others := gather (number + 1) taken.2 lines
      (taken.1.toList ++ others.1, others.2)

/-- Every line of a source, the last one only if it is not empty. -/
def physicalLines (pieces : List (List Char)) : List (List Char) :=
  pieces.dropLast ++ pieces.getLast?.toList.filter (!·.isEmpty)

variable {number : Nat} {pending : Option LogicalLine} {line : List Char} {lines : List (List Char)}

/-! ## Grouping -/

section Group

/-- The grouping gives the logical lines that are ended, unless one is left open. -/
theorem group_eq_gather :
    group number pending lines =
      match (gather number pending lines).2 with
      | none => .ok (gather number pending lines).1
      | some line => .error (.atLine line.number .endOfProgram) := by
  induction lines generalizing number pending with
  | nil => cases pending <;> rfl
  | cons line lines inductionHypothesis =>
      rw [group, gather, take]
      split
      · exact inductionHypothesis
      · dsimp only
        split
        · exact inductionHypothesis
        · rw [inductionHypothesis]
          cases (gather (number + 1) none lines).2 <;> rfl

theorem gather_append
    (front back : List (List Char)) :
    gather number pending (front ++ back) =
      let before := gather number pending front
      let after := gather (number + front.length) before.2 back
      (before.1 ++ after.1, after.2) := by
  induction front generalizing number pending with
  | nil => simp [gather]
  | cons line front inductionHypothesis =>
      rw [List.cons_append, gather, gather, inductionHypothesis]
      simp only [List.append_assoc, List.length_cons, Nat.add_assoc, Nat.add_comm 1]

end Group

/-! ## Lines of a source -/

section Source

theorem isSkipped_dropCarriageReturn (line : List Char) :
    isSkipped (dropCarriageReturn line) = isSkipped line := by
  rw [isSkipped, isSkipped, trimWhere_dropCarriageReturn]

theorem extend_dropCarriageReturn (text line : List Char) :
    extend text (dropCarriageReturn line) = extend text line := by
  by_cases continued : (trimEndWhere isBlank line).getLast? = some '\\' <;>
    simp [extend, cutBackslash, trimEndWhere_dropCarriageReturn, trimWhere_dropCarriageReturn,
      continued]

theorem take_dropCarriageReturn (line : List Char) :
    take number pending (dropCarriageReturn line) = take number pending line := by
  rw [take, take, isSkipped_dropCarriageReturn]
  simp only [extend_dropCarriageReturn]

/-- The carriage return at the end of a line does not matter. -/
theorem take_append_ending
    {ending : List Char}
    (isEnding : ending = [] ∨ ending = ['\r'])
    (line : List Char) :
    take number pending (line ++ ending) = take number pending line := by
  rcases isEnding with rfl | rfl
  · rw [List.append_nil]
  · have dropped : dropCarriageReturn (line ++ ['\r']) = line := by
      simp [dropCarriageReturn]
    rw [← take_dropCarriageReturn, dropped]

/-- The carriage returns of a source do not matter. -/
theorem gather_map_dropCarriageReturn (lines : List (List Char)) :
    gather number pending (lines.map dropCarriageReturn) = gather number pending lines := by
  induction lines generalizing number pending with
  | nil => rfl
  | cons line lines inductionHypothesis =>
      rw [List.map_cons, gather, gather, take_dropCarriageReturn]
      simp only [inductionHypothesis]

/-- The last line of a source counts unless it is empty. -/
theorem physicalLines_append_cons
    {front back : List (List Char)}
    (counts : line ≠ [] ∨ back ≠ []) :
    physicalLines (front ++ line :: back) = front ++ line :: physicalLines back := by
  cases back using List.reverseRecOn with
  | nil => simp [physicalLines, counts.resolve_right (not_not_intro rfl)]
  | append_singleton back last _ =>
      have whole : front ++ line :: (back ++ [last]) = (front ++ line :: back) ++ [last] := by
        simp
      rw [whole, physicalLines, physicalLines, List.dropLast_concat, List.dropLast_concat,
        List.getLast?_concat, List.getLast?_concat]
      simp

/-- A program is made up of the logical lines of its physical lines, none of which is left open. -/
theorem parseProgram_eq_ok_iff
    {pieces : List (List Char)}
    {statements : List Statement}
    (oneLine : ∀ piece ∈ pieces, '\n' ∉ piece) :
    parseProgram (.ofList (['\n'].intercalate pieces)) = .ok statements ↔
      (gather 1 none (physicalLines pieces)).2 = none ∧
        (gather 1 none (physicalLines pieces)).1.mapM statement = .ok statements := by
  have sameLines : gather 1 none (lineLists (['\n'].intercalate pieces)) =
      gather 1 none (physicalLines pieces) := by
    by_cases nonempty : pieces = []
    · subst nonempty
      rfl
    · rw [lineLists, List.splitOn_intercalate '\n' oneLine nonempty, physicalLines, gather_append,
        gather_append, gather_map_dropCarriageReturn, List.length_map]
  rw [parseProgram, ofSource, String.toList_ofList, group_eq_gather, sameLines]
  cases (gather 1 none (physicalLines pieces)).2 with
  | none => simp [bind, Except.bind]
  | some line => simp [bind, Except.bind]

end Source

end LogicalLine
end TemplatedMarkup
