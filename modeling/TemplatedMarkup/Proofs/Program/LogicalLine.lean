import TemplatedMarkup.Proofs.Program.Bracket
import TemplatedMarkup.Proofs.Text.Trim

/-!
# Logical lines of one physical line

A physical line that stands for itself is neither skipped nor changed by the grouping; it is a
logical line when no bracket stays open on it.  So a program of such lines has the statements of
its physical lines.
-/

namespace TemplatedMarkup
namespace LogicalLine

open Text

/-- A line that starts with neither a blank nor a comment is not skipped. -/
theorem isSkipped_eq_false
    {line : List Char}
    (first : ∃ character ∈ line.head?, isBlank character = false ∧ character ≠ '#') :
    isSkipped line = false := by
  obtain ⟨character, isFirst, noBlank, noComment⟩ := first
  have kept := head?_trimWhere isFirst noBlank
  unfold isSkipped
  cases trimmed : trimWhere isBlank line with
  | nil => simp [trimmed] at kept
  | cons head rest =>
      rw [trimmed] at kept
      simpa [Option.some.inj kept] using noComment

/-- A physical line that is neither skipped nor trimmed, and that no mark continues. -/
structure IsComplete (line : List Char) : Prop where
  /-- The line starts with a character that is no blank, nor the mark of a comment. -/
  first : ∃ character ∈ line.head?, isBlank character = false ∧ character ≠ '#'
  /-- The line ends with a character that is no blank, nor the mark of a continuation. -/
  last : ∃ character ∈ line.getLast?, isBlank character = false ∧ character ≠ '\\'
  /-- The line is no head of a definition. -/
  noHead : isDefinitionHead line = false
  /-- There is one line only. -/
  oneLine : '\n' ∉ line

section Complete

variable {line : List Char}

theorem IsComplete.nonempty (complete : IsComplete line) : line ≠ [] := by
  obtain ⟨character, isFirst, -⟩ := complete.first
  rintro rfl
  contradiction

theorem IsComplete.getLast?_noBlank (complete : IsComplete line) :
    ∀ character ∈ line.getLast?, isBlank character = false := by
  obtain ⟨character, isLast, noBlank, -⟩ := complete.last
  intro other isOther
  rwa [← Option.mem_unique isLast isOther]

theorem IsComplete.trimWhere_eq (complete : IsComplete line) :
    trimWhere isBlank line = line := by
  obtain ⟨character, isFirst, noBlank, -⟩ := complete.first
  refine trimWhere_eq_self (fun other isOther => ?_) complete.getLast?_noBlank
  rwa [← Option.mem_unique isFirst isOther]

theorem IsComplete.not_isSkipped (complete : IsComplete line) :
    isSkipped line = false :=
  isSkipped_eq_false complete.first

theorem IsComplete.cutBackslash_eq (complete : IsComplete line) :
    cutBackslash line = (line, false) := by
  obtain ⟨character, isLast, -, noBackslash⟩ := complete.last
  simp [cutBackslash, trimEndWhere_eq_self complete.getLast?_noBlank, Option.mem_def.mp isLast,
    noBackslash]

/-- A complete line is taken as it is, and only a bracket may leave it open. -/
theorem IsComplete.extend_eq (complete : IsComplete line) :
    extend [] line = (line, decide (0 < openBrackets .code 0 line)) := by
  simp [extend, complete.cutBackslash_eq, complete.trimWhere_eq, complete.noHead]

theorem IsComplete.not_return (complete : IsComplete line) :
    line.getLast? ≠ some '\r' := by
  intro isLast
  have noBlank := complete.getLast?_noBlank '\r' isLast
  exact absurd noBlank (by decide)

/-- A complete line is grouped by itself unless a bracket stays open. -/
theorem IsComplete.group_cons
    (complete : IsComplete line)
    (number : Nat)
    (lines : List (List Char)) :
    group number none (line :: lines) =
      if 0 < openBrackets .code 0 line then group (number + 1) (some ⟨number, line⟩) lines
      else (group (number + 1) none lines).map (⟨number, line⟩ :: ·) := by
  rw [group]
  simp only [Option.isNone_none, Bool.true_and, complete.not_isSkipped, Bool.false_eq_true,
    if_false, Option.getD_none, complete.extend_eq, decide_eq_true_eq]
  split
  · rfl
  · cases group (number + 1) none lines <;> rfl

/-- A program of one complete line has the statement of that line, if it has any. -/
theorem IsComplete.parseProgram_eq (complete : IsComplete line) :
    parseProgram (.ofList line) =
      if 0 < openBrackets .code 0 line then .error (.atLine 1 .endOfProgram)
      else ((Statement.parse (.ofList line)).mapError (.atLine 1)).map ([·]) := by
  have alone : lineLists line = [line] := by
    have joined := @lineLists_intercalate [line]
      (by simpa using complete.oneLine) (by simpa using complete.nonempty)
      (by simpa using complete.not_return)
    simpa [List.intercalate] using joined
  unfold parseProgram ofSource
  rw [String.toList_ofList, alone, complete.group_cons]
  split
  · rfl
  · cases parsed : Statement.parse (.ofList line) <;>
      simp [group, statement, parsed, Except.map, Except.mapError, bind, Except.bind, pure,
        Except.pure]

end Complete

/-- A complete line on which no bracket stays open, and its statement. -/
structure States
    (line : List Char)
    (statement : Statement) : Prop where
  /-- The line stands for itself. -/
  complete : IsComplete line
  /-- Every bracket is closed. -/
  closed : openBrackets .code 0 line ≤ 0
  /-- The line is the statement. -/
  parsed : Statement.parse (.ofList line) = .ok statement

/-- Lines that state statements are grouped one by one. -/
theorem statements_of_group
    {lines : List (List Char)}
    {statements : List Statement}
    (stated : List.Forall₂ States lines statements)
    (number : Nat) :
    (group number none lines).bind (·.mapM statement) = .ok statements := by
  induction stated generalizing number with
  | nil => rfl
  | @cons line first lines others states _ inductionHypothesis =>
      have following := inductionHypothesis (number + 1)
      rw [states.complete.group_cons, if_neg (Int.not_lt.mpr states.closed)]
      cases grouped : group (number + 1) none lines with
      | error cause =>
          rw [grouped] at following
          contradiction
      | ok more =>
          rw [grouped] at following
          have read : more.mapM statement = .ok others := following
          have own : statement ⟨number, line⟩ = .ok first := by
            simp [statement, states.parsed, Except.mapError]
          change (⟨number, line⟩ :: more).mapM statement = _
          rw [List.mapM_cons, own, read]
          rfl

/-- A program of lines that state statements has these statements. -/
theorem parseProgram_of_states
    {lines : List (List Char)}
    {statements : List Statement}
    (stated : List.Forall₂ States lines statements) :
    parseProgram (.ofList (['\n'].intercalate lines)) = .ok statements := by
  have complete : ∀ line ∈ lines, IsComplete line := by
    induction stated with
    | nil => simp
    | cons states _ inductionHypothesis =>
        exact List.forall_mem_cons.mpr ⟨states.complete, inductionHypothesis⟩
  unfold parseProgram ofSource
  rw [String.toList_ofList, lineLists_intercalate (fun line among => (complete line among).oneLine)
    (fun line among => (complete line among).nonempty)
    fun line among => (complete line among).not_return]
  exact statements_of_group stated 1

end LogicalLine
end TemplatedMarkup
