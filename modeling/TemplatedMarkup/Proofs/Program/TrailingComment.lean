import TemplatedMarkup.Proofs.Expression.Commented
import TemplatedMarkup.Proofs.Expression.RoundTrip
import TemplatedMarkup.Proofs.Outcome
import TemplatedMarkup.Proofs.Program.Grouping
import TemplatedMarkup.Proofs.Program.Statement

/-!
# Comments at the ends of lines

The physical lines of a logical line are joined by spaces before they are read, so a comment takes
all that follows it on the logical line.  A comment on the last physical line changes no statement;
one on a line that leaves a bracket open takes the closing bracket, and the program is refused.
-/

namespace TemplatedMarkup
namespace LogicalLine

open Expression Text

/-- A line with a comment behind it. -/
def commented (line comment : List Char) : List Char :=
  line ++ ' ' :: '#' :: comment

/-- The line and the blank in front of the mark are what a comment stands behind. -/
theorem commented_eq (line comment : List Char) :
    commented line comment = (line ++ [' ']) ++ '#' :: comment := by
  simp [commented]

/-- The state of the scan of brackets behind a text; there is none in a comment. -/
def endState (state : BracketState) : List Char → Option BracketState
  | [] => some state
  | character :: rest =>
      match state with
      | .escape mark => endState (.string mark) rest
      | .string mark =>
          if character = '\\' then endState (.escape mark) rest
          else if character = mark then endState .code rest
          else endState (.string mark) rest
      | .code =>
          match character with
          | '\'' | '"' => endState (.string character) rest
          | '#' => none
          | _ => endState .code rest

/-- The text of a logical line from its start to the end of a physical line. -/
def textThrough (pending : Option LogicalLine) (line : List Char) : List Char :=
  (extend (pending.elim [] text) line).1

/-- What a line and a comment have to be like for the comment to stand behind the line. -/
structure AllowsComment (pending : Option LogicalLine) (line comment : List Char) : Prop where
  /-- No backslash continues the line, with the comment or without it. -/
  lineEnd : (trimEndWhere isBlank line).getLast? ≠ some '\\'
  commentEnd : (trimEndWhere isBlank comment).getLast? ≠ some '\\'
  /-- The line does not end inside a string. -/
  notInString : ∀ state ∈ endState .code (textThrough pending line), state = .code
  /-- The blanks at the end of the line are blanks to the lexer. -/
  separators : trimEndWhere isSeparator line = trimEndWhere isBlank line
  /-- The body of a definition is not left for the next line. -/
  noHead : isDefinitionHead (textThrough pending line) = false
  noHeadCommented : isDefinitionHead (textThrough pending (commented line comment)) = false

variable
  {pending : Option LogicalLine}
  {line comment blanks text : List Char}
  {number : Nat}

/-! ## Scanning -/

section Scan

/-- In code, a character that begins neither a string nor a comment changes the count or not. -/
theorem exists_openBrackets_cons
    {character : Char}
    (notQuote : character ≠ '\'' ∧ character ≠ '"')
    (notMark : character ≠ '#') :
    ∃ change, ∀ depth rest,
      openBrackets .code depth (character :: rest) = openBrackets .code (depth + change) rest := by
  by_cases opens : character = '(' ∨ character = '[' ∨ character = '{'
  · refine ⟨1, fun depth rest => ?_⟩
    rcases opens with rfl | rfl | rfl <;> rfl
  by_cases closes : character = ')' ∨ character = ']' ∨ character = '}'
  · refine ⟨-1, fun depth rest => ?_⟩
    rcases closes with rfl | rfl | rfl <;> rfl
  rw [not_or, not_or] at opens closes
  exact ⟨0, fun depth rest => by simp [openBrackets, notQuote, opens, closes]⟩

/-- A scan goes on from the state behind a text, unless a comment takes what follows. -/
theorem openBrackets_append
    (state : BracketState)
    (depth : Int)
    (text rest : List Char) :
    openBrackets state depth (text ++ rest) =
      (endState state text).elim (openBrackets state depth text)
        (openBrackets · (openBrackets state depth text) rest) := by
  fun_induction endState state text generalizing depth with
  | case1 => rfl
  | case2 character text mark inductionHypothesis => exact inductionHypothesis depth
  | case3 text mark inductionHypothesis => exact inductionHypothesis depth
  | case4 text mark notEscape inductionHypothesis =>
      simpa [openBrackets, notEscape] using inductionHypothesis depth
  | case5 character text mark notEscape notMark inductionHypothesis =>
      simpa [openBrackets, notEscape, notMark] using inductionHypothesis depth
  | case6 text inductionHypothesis => exact inductionHypothesis depth
  | case7 text inductionHypothesis => exact inductionHypothesis depth
  | case8 text => rfl
  | case9 character text notSingle notDouble notMark inductionHypothesis =>
      obtain ⟨change, counts⟩ := exists_openBrackets_cons ⟨notSingle, notDouble⟩ notMark
      rw [List.cons_append, counts, counts, inductionHypothesis]

theorem endState_append
    (state : BracketState)
    (text rest : List Char) :
    endState state (text ++ rest) = (endState state text).bind (endState · rest) := by
  fun_induction endState state text with
  | case1 => rfl
  | case2 character text mark inductionHypothesis => exact inductionHypothesis
  | case3 text mark inductionHypothesis => exact inductionHypothesis
  | case4 text mark notEscape inductionHypothesis =>
      simpa [endState, notEscape] using inductionHypothesis
  | case5 character text mark notEscape notMark inductionHypothesis =>
      simpa [endState, notEscape, notMark] using inductionHypothesis
  | case6 text inductionHypothesis => exact inductionHypothesis
  | case7 text inductionHypothesis => exact inductionHypothesis
  | case8 text => rfl
  | case9 character text notSingle notDouble notMark inductionHypothesis =>
      simpa [endState, notSingle, notDouble, notMark] using inductionHypothesis

/-- Blanks and a comment open no brackets, and nothing is scanned behind them. -/
theorem scan_comment
    (separators : ∀ blank ∈ blanks, isSeparator blank = true)
    (depth : Int)
    (comment : List Char) :
    openBrackets .code depth (blanks ++ '#' :: comment) = depth ∧
      endState .code (blanks ++ '#' :: comment) = none := by
  induction blanks with
  | nil => exact ⟨rfl, rfl⟩
  | cons blank blanks inductionHypothesis =>
      rw [List.forall_mem_cons] at separators
      rcases eq_of_isSeparator separators.1 with rfl | rfl | rfl | rfl <;>
        exact inductionHypothesis separators.2

/-- A comment behind a text that ends outside of strings takes all that follows. -/
theorem openBrackets_comment
    (notInString : ∀ state ∈ endState .code text, state = .code)
    (separators : ∀ blank ∈ blanks, isSeparator blank = true)
    (comment : List Char) :
    openBrackets .code 0 (text ++ (blanks ++ '#' :: comment)) = openBrackets .code 0 text ∧
      endState .code (text ++ (blanks ++ '#' :: comment)) = none := by
  rw [openBrackets_append, endState_append]
  cases ends : endState .code text with
  | none => exact ⟨rfl, rfl⟩
  | some state =>
      obtain rfl := notInString state ends
      exact scan_comment separators _ comment

end Scan

/-! ## Extending -/

section Extend

theorem isBlank_of_isSeparator
    {character : Char}
    (separator : isSeparator character = true) :
    isBlank character = true := by
  rcases eq_of_isSeparator separator with rfl | rfl | rfl | rfl <;> decide

/-- What is dropped in front of a character that stays does not depend on what is behind it. -/
theorem exists_dropWhile_append_cons
    {drops : Char → Bool}
    {last : Char}
    (stays : drops last = false)
    (front : List Char) :
    ∃ kept, ∀ rest, (front ++ last :: rest).dropWhile drops = kept ++ last :: rest := by
  induction front with
  | nil => exact ⟨[], fun rest => List.dropWhile_cons_of_neg (by simp [stays])⟩
  | cons character front inductionHypothesis =>
      obtain ⟨kept, dropped⟩ := inductionHypothesis
      cases isDropped : drops character with
      | true =>
          refine ⟨kept, fun rest => ?_⟩
          rw [List.cons_append, List.dropWhile_cons_of_pos isDropped, dropped]
      | false =>
          exact ⟨character :: front, fun rest => List.dropWhile_cons_of_neg (by simp [isDropped])⟩

/-- Trimming leaves the mark of a comment and all in front of it. -/
theorem trimEndWhere_append_comment (front comment : List Char) :
    trimEndWhere isBlank (front ++ '#' :: comment) =
      front ++ '#' :: trimEndWhere isBlank comment := by
  have isLast : '#' ∈ (front ++ ['#']).getLast? := by
    simp
  have stays : isBlank '#' = false := by
    decide
  simpa using trimEndWhere_append_of_getLast? ⟨'#', isLast, stays⟩ comment

/-- A comment behind a line is kept with the blanks in front of it. -/
theorem exists_trimWhere_commented
    (separators : trimEndWhere isSeparator line = trimEndWhere isBlank line)
    (comment : List Char) :
    ∃ blanks, trimWhere isBlank (commented line comment) =
        trimWhere isBlank line ++ (blanks ++ '#' :: trimEndWhere isBlank comment) ∧
      (∀ blank ∈ blanks, isSeparator blank = true) ∧ ∀ blank ∈ blanks, blank ∈ line ++ [' '] := by
  obtain ⟨behind, whole, dropped⟩ := exists_eq_trimEndWhere_append isSeparator line
  rw [separators] at whole
  rcases List.eq_nil_or_concat (trimEndWhere isBlank line) with nothing | ⟨start, last, isKept⟩
  · rw [nothing, List.nil_append] at whole
    have allBlank : ∀ character ∈ line, isBlank character = true := fun character among =>
      isBlank_of_isSeparator (dropped character (whole ▸ among))
    have inFront : ∀ character ∈ line ++ [' '], isBlank character = true := by
      simpa [or_imp, forall_and] using ⟨allBlank, rfl⟩
    refine ⟨[], ?_, nofun, nofun⟩
    rw [trimWhere_eq_nil_iff.mpr allBlank, commented_eq, trimWhere,
      List.dropWhile_append_of_pos inFront, List.dropWhile_cons_of_neg (by decide)]
    exact trimEndWhere_append_comment [] comment
  · have stays : isBlank last = false := getLast?_trimEndWhere isBlank line last (by simp [isKept])
    obtain ⟨kept, dropsTo⟩ := exists_dropWhile_append_cons stays start
    have isLine : line = start ++ last :: behind := by
      simpa [isKept] using whole
    have isTrimmed : trimWhere isBlank line = kept ++ [last] := by
      rw [trimWhere, isLine, dropsTo, ← List.singleton_append, ← List.append_assoc,
        trimEndWhere_append_of_dropped fun character among =>
          isBlank_of_isSeparator (dropped character among),
        trimEndWhere_eq_self (by simpa using stays)]
    have split : commented line comment =
        start ++ last :: (behind ++ ' ' :: '#' :: comment) := by
      simp [commented, isLine]
    refine ⟨behind ++ [' '], ?_, ?_, ?_⟩
    · have front : kept ++ last :: (behind ++ ' ' :: '#' :: comment) =
          (kept ++ last :: behind ++ [' ']) ++ '#' :: comment := by
        simp
      rw [split, trimWhere, dropsTo, front, trimEndWhere_append_comment, isTrimmed]
      simp
    · simpa [or_imp, forall_and] using ⟨dropped, rfl⟩
    · rw [isLine]
      simp +contextual

theorem cutBackslash_eq_self
    (lineEnd : (trimEndWhere isBlank line).getLast? ≠ some '\\') :
    cutBackslash line = (line, false) := by
  simp [cutBackslash, lineEnd]

theorem cutBackslash_commented
    (commentEnd : (trimEndWhere isBlank comment).getLast? ≠ some '\\')
    (line : List Char) :
    cutBackslash (commented line comment) = (commented line comment, false) := by
  refine cutBackslash_eq_self ?_
  rw [commented_eq, trimEndWhere_append_comment]
  cases kept : trimEndWhere isBlank comment with
  | nil => simp
  | cons first others => simpa [kept] using commentEnd

/-- The comment stands behind the text of the logical line. -/
theorem AllowsComment.exists_textThrough_commented
    (allows : AllowsComment pending line comment)
    (oneLine : '\n' ∉ line)
    (commentLine : '\n' ∉ comment) :
    ∃ blanks rest, textThrough pending (commented line comment) =
        textThrough pending line ++ (blanks ++ '#' :: rest) ∧
      (∀ blank ∈ blanks, isSeparator blank = true) ∧ '\n' ∉ blanks ++ '#' :: rest := by
  obtain ⟨blanks, trimmed, separators, onLine⟩ :=
    exists_trimWhere_commented allows.separators comment
  refine ⟨blanks, trimEndWhere isBlank comment, ?_, separators, ?_⟩
  · simp [textThrough, extend, cutBackslash_eq_self allows.lineEnd,
      cutBackslash_commented allows.commentEnd, trimmed]
  · have inBlanks : '\n' ∉ blanks := fun among => oneLine (by simpa using onLine _ among)
    have inRest : '\n' ∉ trimEndWhere isBlank comment := fun among =>
      commentLine (mem_of_mem_trimEndWhere among)
    simp [inBlanks, inRest]

end Extend

/-! ## Grouping -/

section Grouping

/-- A line is skipped if it has no character that stays, or the mark of a comment is the first. -/
theorem isSkipped_iff :
    isSkipped line = true ↔ ∀ first ∈ (line.dropWhile isBlank).head?, first = '#' := by
  have stays := head?_dropWhile_stays isBlank line
  rw [isSkipped, trimWhere]
  cases kept : line.dropWhile isBlank with
  | nil => simp [trimEndWhere]
  | cons first rest =>
      rw [kept] at stays
      have isFirst := @head?_trimWhere isBlank (first :: rest) first rfl (stays first rfl)
      rw [trimWhere, dropWhile_eq_self stays] at isFirst
      obtain ⟨others, same⟩ := List.head?_eq_some_iff.mp isFirst
      simp [same]

theorem isSkipped_commented (line comment : List Char) :
    isSkipped (commented line comment) = isSkipped line := by
  have firsts : (∀ first ∈ ((commented line comment).dropWhile isBlank).head?, first = '#') ↔
      ∀ first ∈ (line.dropWhile isBlank).head?, first = '#' := by
    rw [commented, List.dropWhile_append]
    cases line.dropWhile isBlank with
    | nil => simp [show isBlank ' ' = true from by decide, show isBlank '#' = false from by decide]
    | cons first rest => simp
  rw [Bool.eq_iff_iff, isSkipped_iff, isSkipped_iff, firsts]

theorem extend_snd (text line : List Char) :
    (extend text line).2 =
      ((cutBackslash line).2 || isDefinitionHead (extend text line).1 ||
        decide (0 < openBrackets .code 0 (extend text line).1)) :=
  rfl

/-- A line that is not skipped ends its logical line unless it leaves a bracket open. -/
theorem take_eq
    (number : Nat)
    (notSkipped : (pending.isNone && isSkipped line) = false)
    (lineEnd : cutBackslash line = (line, false))
    (noHead : isDefinitionHead (textThrough pending line) = false) :
    take number pending line =
      let reached := ⟨(pending.getD ⟨number, []⟩).number, textThrough pending line⟩
      if 0 < openBrackets .code 0 (textThrough pending line) then (none, some reached)
      else (some reached, none) := by
  have start : (pending.getD ⟨number, []⟩).text = pending.elim [] text := by
    cases pending <;> rfl
  have open? : (extend (pending.elim [] text) line).2 =
      decide (0 < openBrackets .code 0 (textThrough pending line)) := by
    rw [textThrough] at noHead ⊢
    rw [extend_snd, lineEnd, noHead, Bool.or_false, Bool.false_or]
  rw [take, notSkipped, if_neg (by decide)]
  simp only [start, open?, decide_eq_true_eq]
  rfl

/-- A line ends the same logical line with a comment, which stands behind the text then. -/
theorem AllowsComment.exists_take_of_ended
    (allows : AllowsComment pending line comment)
    (notSkipped : (pending.isNone && isSkipped line) = false)
    (oneLine : '\n' ∉ line)
    (commentLine : '\n' ∉ comment)
    (ended : (take number pending line).2 = none) :
    ∃ start text blanks rest, take number pending line = (some ⟨start, text⟩, none) ∧
      take number pending (commented line comment) =
        (some ⟨start, text ++ (blanks ++ '#' :: rest)⟩, none) ∧
      (∀ blank ∈ blanks, isSeparator blank = true) ∧ '\n' ∉ blanks ++ '#' :: rest := by
  obtain ⟨blanks, rest, textCommented, separators, restLine⟩ :=
    allows.exists_textThrough_commented oneLine commentLine
  have taken := take_eq number notSkipped (cutBackslash_eq_self allows.lineEnd) allows.noHead
  have takenCommented := take_eq number (by rwa [isSkipped_commented])
    (cutBackslash_commented allows.commentEnd line) allows.noHeadCommented
  rw [textCommented, (openBrackets_comment allows.notInString separators rest).1]
    at takenCommented
  by_cases isOpen : 0 < openBrackets .code 0 (textThrough pending line)
  · rw [taken, if_pos isOpen] at ended
    contradiction
  · rw [if_neg isOpen] at taken takenCommented
    exact ⟨_, _, blanks, rest, taken, takenCommented, separators, restLine⟩

/-- A line that leaves a bracket open leaves it open with a comment, which takes what follows. -/
theorem AllowsComment.exists_take_of_open
    (allows : AllowsComment pending line comment)
    (notSkipped : (pending.isNone && isSkipped line) = false)
    (oneLine : '\n' ∉ line)
    (commentLine : '\n' ∉ comment)
    (isLeft : (take number pending line).2 ≠ none) :
    ∃ start : LogicalLine, take number pending (commented line comment) = (none, some start) ∧
      0 < openBrackets .code 0 start.text ∧ endState .code start.text = none := by
  obtain ⟨blanks, rest, textCommented, separators, -⟩ :=
    allows.exists_textThrough_commented oneLine commentLine
  obtain ⟨sameCount, inComment⟩ := openBrackets_comment allows.notInString separators rest
  have taken := take_eq number notSkipped (cutBackslash_eq_self allows.lineEnd) allows.noHead
  have takenCommented := take_eq number (by rwa [isSkipped_commented])
    (cutBackslash_commented allows.commentEnd line) allows.noHeadCommented
  rw [textCommented, sameCount] at takenCommented
  by_cases isOpen : 0 < openBrackets .code 0 (textThrough pending line)
  · rw [if_pos isOpen] at takenCommented
    exact ⟨_, takenCommented, sameCount ▸ isOpen, inComment⟩
  · rw [taken, if_neg isOpen] at isLeft
    contradiction

/-- A logical line in which a comment takes the closing bracket is never ended. -/
theorem gather_of_open
    {start : LogicalLine}
    (isOpen : 0 < openBrackets .code 0 start.text)
    (inComment : endState .code start.text = none)
    (lines : List (List Char)) :
    (gather number (some start) lines).2 ≠ none := by
  induction lines generalizing number start with
  | nil => exact Option.some_ne_none start
  | cons line lines inductionHypothesis =>
      obtain ⟨more, same⟩ : ∃ more, (extend start.text line).1 = start.text ++ more := by
        exact ⟨_, List.append_assoc _ _ _⟩
      have stillOpen : 0 < openBrackets .code 0 (extend start.text line).1 := by
        rwa [same, openBrackets_append, inComment]
      have stillComment : endState .code (extend start.text line).1 = none := by
        rw [same, endState_append, inComment]
        rfl
      have goesOn : (extend start.text line).2 = true := by
        rw [extend_snd, decide_eq_true stillOpen, Bool.or_true]
      have taken : take number (some start) line =
          (none, some ⟨start.number, (extend start.text line).1⟩) := by
        rw [take, if_neg (by simp)]
        simp only [Option.getD_some, goesOn, if_true]
      rw [gather, taken]
      exact inductionHypothesis stillOpen stillComment

/-- A comment does not change the statement of a logical line. -/
theorem statement_append_comment
    {found : Statement}
    (stated : statement ⟨number, text⟩ = .ok found)
    (separators : ∀ blank ∈ blanks, isSeparator blank = true)
    (oneLine : '\n' ∉ blanks ++ '#' :: comment) :
    statement ⟨number, text ++ (blanks ++ '#' :: comment)⟩ = .ok found := by
  unfold statement Statement.parse tokenize at stated ⊢
  rw [String.toList_ofList] at stated ⊢
  cases lexed : lex text with
  | error cause => simp [lexed, bind, Except.bind, Except.mapError] at stated
  | ok tokens =>
      rw [lexed] at stated
      rw [lex_append_comment lexed separators oneLine]
      exact stated

end Grouping

/-! ## Programs -/

section Program

variable {front back : List (List Char)} {statements : List Statement}

/-- An accepted program is made up of the logical lines of its lines, an empty last one or not. -/
theorem gather_of_parseProgram
    (oneLine : ∀ other ∈ front ++ line :: back, '\n' ∉ other)
    (parsed : parseProgram (.ofList (['\n'].intercalate (front ++ line :: back))) =
      .ok statements) :
    (gather 1 none (front ++ line :: physicalLines back)).2 = none ∧
      (gather 1 none (front ++ line :: physicalLines back)).1.mapM statement = .ok statements := by
  rw [parseProgram_eq_ok_iff oneLine] at parsed
  by_cases counts : line ≠ [] ∨ back ≠ []
  · rwa [physicalLines_append_cons counts] at parsed
  · rw [not_or, not_not, not_not] at counts
    obtain ⟨rfl, rfl⟩ := counts
    have noLast : physicalLines (front ++ [[]]) = front := by
      simp [physicalLines]
    rw [noLast] at parsed
    rw [gather_append]
    simpa [parsed.1, gather, take, isSkipped, trimWhere, trimEndWhere, physicalLines] using parsed.2

/--
A comment at the end of a line changes no statement if the logical line ends with the line.  If a
bracket is open there, the program is refused.
-/
theorem parseProgram_commented_iff
    {ending : List Char}
    (isEnding : ending = [] ∨ ending = ['\r'])
    (oneLine : ∀ other ∈ front ++ (line ++ ending) :: back, '\n' ∉ other)
    (commentLine : '\n' ∉ comment)
    (parsed : parseProgram (.ofList (['\n'].intercalate (front ++ (line ++ ending) :: back))) =
      .ok statements)
    (allows : (gather 1 none front).2 = none ∧ isSkipped line = true ∨
      AllowsComment (gather 1 none front).2 line comment) :
    parseProgram (.ofList (['\n'].intercalate
        (front ++ (commented line comment ++ ending) :: back))) = .ok statements ↔
      (gather 1 none (front ++ [line])).2 = none := by
  have lineIsOne : '\n' ∉ line := fun among => oneLine (line ++ ending) (by simp) (by simp [among])
  have commentedLines :
      ∀ other ∈ front ++ (commented line comment ++ ending) :: back, '\n' ∉ other := by
    rw [List.forall_mem_append, List.forall_mem_cons] at oneLine ⊢
    refine ⟨oneLine.1, ?_, oneLine.2.2⟩
    rcases isEnding with rfl | rfl <;> simp [commented, lineIsOne, commentLine]
  obtain ⟨noneLeft, stated⟩ := gather_of_parseProgram oneLine parsed
  rw [parseProgram_eq_ok_iff commentedLines, physicalLines_append_cons (.inl (by simp [commented])),
    gather_append]
  rw [gather_append] at noneLeft stated ⊢
  simp only [gather, List.append_nil, take_append_ending isEnding] at noneLeft stated ⊢
  generalize gather 1 none front = before at *
  by_cases notSkipped : (before.2.isNone && isSkipped line) = false
  · have allows : AllowsComment before.2 line comment := by
      refine allows.resolve_left ?_
      rintro ⟨nothing, skipped⟩
      simp [nothing, skipped] at notSkipped
    by_cases ended : (take (1 + front.length) before.2 line).2 = none
    · obtain ⟨start, text, blanks, rest, taken, takenCommented, separators, restLine⟩ :=
        allows.exists_take_of_ended notSkipped lineIsOne commentLine ended
      rw [taken] at noneLeft stated
      rw [takenCommented]
      refine iff_of_true ⟨noneLeft, mapM_append_cons_eq_ok stated fun found statedHere => ?_⟩ ended
      exact statement_append_comment statedHere separators restLine
    · obtain ⟨start, takenCommented, isOpen, inComment⟩ :=
        allows.exists_take_of_open notSkipped lineIsOne commentLine ended
      refine iff_of_false (fun accepted => ?_) ended
      rw [takenCommented] at accepted
      exact gather_of_open isOpen inComment _ accepted.1
  · rw [Bool.not_eq_false, Bool.and_eq_true, Option.isNone_iff_eq_none] at notSkipped
    have skips (other : List Char) (skipped : isSkipped other = true) :
        take (1 + front.length) before.2 other = (none, none) := by
      simp [take, notSkipped.1, skipped]
    rw [skips line notSkipped.2] at noneLeft stated ⊢
    rw [skips _ (by rw [isSkipped_commented, notSkipped.2])]
    exact iff_of_true ⟨noneLeft, stated⟩ rfl

set_option maxRecDepth 20000 in
/-- A comment behind a string, at the end of a logical line of two physical lines. -/
theorem parseProgram_commented_iff_string :
    let statements : List Statement := [.assign "x" (.literal (.str "a"))]
    parseProgram "x = \\\n'a'\n" = .ok statements ∧
      parseProgram "x = \\\n'a' # ['b\n" = .ok statements := by
  intro statements
  have value : Expression.parse (.ofList "'a'".toList) = .ok (.literal (.str "a")) :=
    Expr.parse_of_tokens (.literal trivial) (by simp [Expr.constants, Literal.isExact])
      (by simp [Expr.nesting, maxNesting]) (by cbv)
  have own : IsOwnName "x" := isOwnName_of_tokenize (by cbv) (by decide)
  have lines : ofSource "x = \\\n'a'\n" = .ok [⟨1, Statement.assignHead "x" ++ "'a'".toList⟩] := by
    cbv
  have parsed : parseProgram "x = \\\n'a'\n" = .ok statements := by
    simp only [parseProgram, lines, bind, Except.bind, List.mapM_cons]
    rw [Statement.statement_assign own value]
    rfl
  have before : (gather 1 none ["x = \\".toList]).2 = some ⟨1, "x =".toList⟩ := by
    cbv
  have allows : AllowsComment (gather 1 none ["x = \\".toList]).2 "'a'".toList " ['b".toList := by
    have ends : endState .code (textThrough (some ⟨1, "x =".toList⟩) "'a'".toList) =
        some .code := by
      cbv
    rw [before]
    refine ⟨by decide, by decide, fun state isState => ?_, by decide, by decide, by decide⟩
    exact (Option.some.inj (ends.symm.trans isState)).symm
  have oneLine : ∀ line ∈ ["x = \\".toList] ++ ("'a'".toList ++ []) :: [[]], '\n' ∉ line := by
    decide
  have ends : (gather 1 none (["x = \\".toList] ++ ["'a'".toList])).2 = none := by
    cbv
  exact ⟨parsed, (parseProgram_commented_iff (.inl rfl) oneLine (by decide) parsed
    (.inr allows)).mpr ends⟩

set_option maxRecDepth 20000 in
/-- Behind an open bracket, a comment takes the closing bracket on the next line. -/
theorem parseProgram_commented_bracket :
    parseProgram "x = [\n'a']" = .ok [.assign "x" (.list [.literal (.str "a")])] ∧
      parseProgram "x = [ # c\n'a']" = .error (.atLine 1 .endOfProgram) := by
  have value : Expression.parse (.ofList "[ 'a']".toList) = .ok (.list [.literal (.str "a")]) :=
    Expr.parse_of_tokens (.list (by simpa using .literal trivial))
      (by simp [Expr.constants, Expr.itemsConstants, Literal.isExact])
      (by simp [Expr.nesting, Expr.nestingItems, maxNesting]) (by cbv)
  have own : IsOwnName "x" := isOwnName_of_tokenize (by cbv) (by decide)
  have lines : ofSource "x = [\n'a']" = .ok [⟨1, Statement.assignHead "x" ++ "[ 'a']".toList⟩] := by
    cbv
  have refused : ofSource "x = [ # c\n'a']" = .error (.atLine 1 .endOfProgram) := by
    cbv
  constructor
  · simp only [parseProgram, lines, bind, Except.bind, List.mapM_cons]
    rw [Statement.statement_assign own value]
    rfl
  · rw [parseProgram, refused]
    rfl

end Program

end LogicalLine
end TemplatedMarkup
