import TemplatedMarkup.Proofs.Document.PlainText

/-!
# Headings and rules

A heading takes the place of its line and of the line's end, so what it stands above moves onto the
same line and is found at a line's start no longer.  Headings are converted from the sixth level to
the first, and rules behind them: the later a line is converted, the more lines above it can hide
it.  This module says what becomes of any lines, and when all of them are converted.
-/

namespace TemplatedMarkup
namespace Document

/-! ## Lines and their conversion -/

/-- The characters that markup begins with, other than the dash of a rule. -/
def marks : List Char := ['#', '*', '_', '[']

/-- A text of one line without marks. -/
def IsUnmarked (text : List Char) : Prop :=
  ∀ character ∈ text, character ≠ '\n' ∧ character ∉ marks

/-- A line of a body. -/
inductive BodyLine where
  | plain (text : List Char)
  | heading (level : Nat) (blanks text : List Char)
  | rule (dashes : Nat)

/-- The parts of a heading line. -/
structure IsHeading (level : Nat) (blanks text : List Char) : Prop where
  /-- There are six levels. -/
  level_mem : 1 ≤ level ∧ level ≤ 6
  /-- A blank ends the marks of the level. -/
  separated : blanks ≠ []
  blank : ∀ character ∈ blanks, isLineBlank character = true
  unmarked : IsUnmarked text
  /-- The text is trimmed. -/
  first : ∀ character ∈ text.head?, isLineBlank character = false
  last : ∀ character ∈ text.getLast?, isLineBlank character = false

namespace BodyLine

/-- Whether a line is written as its constructor says. -/
def IsWritten : BodyLine → Prop
  | .plain text => IsUnmarked text ∧ text.head? ≠ some '-'
  | .heading level blanks text => IsHeading level blanks text
  | .rule dashes => 3 ≤ dashes

/-- The text of a line. -/
def source : BodyLine → List Char
  | .plain text => text
  | .heading level blanks text => List.replicate level '#' ++ blanks ++ text
  | .rule dashes => List.replicate dashes '-'

/-- What a line becomes. -/
def element : BodyLine → List Char
  | .plain text => text
  | .heading level _ text =>
      "<h".toList ++ Nat.toDigits 10 level ++ '>' :: text ++
        "</h".toList ++ Nat.toDigits 10 level ++ ['>']
  | .rule _ => "<hr>".toList

/-- The turn of a line: lines of greater ranks are converted before those of lesser ones. -/
def rank? : BodyLine → Option Nat
  | .plain _ => none
  | .heading level _ _ => some level
  | .rule _ => some 0

/--
The rank of a line if it is converted, given that of the line above it.  A line above of greater
rank is converted first, and then this one does not start a line any more.
-/
def seenRank (above : Option Nat) (line : BodyLine) : Option Nat :=
  line.rank?.filter fun rank => above.all (· ≤ rank)

/-- A heading hides a line right below it: a rule, or a heading with fewer marks. -/
inductive Hides : BodyLine → BodyLine → Prop where
  | heading {upper lower : Nat} {upperBlanks upperText lowerBlanks lowerText : List Char}
      (fewer : lower < upper) :
      Hides (.heading upper upperBlanks upperText) (.heading lower lowerBlanks lowerText)
  | rule (level : Nat) (blanks text : List Char) (dashes : Nat) :
      Hides (.heading level blanks text) (.rule dashes)

end BodyLine

/-- A rest behind the end of a line, unless the line was the last one. -/
def endLine (lines : List BodyLine) (rest : List Char) : List Char :=
  if lines.isEmpty then [] else '\n' :: rest

/-- The text of lines. -/
def sourceOf (lines : List BodyLine) : List Char :=
  ['\n'].intercalate (lines.map BodyLine.source)

/-- The text in which every heading and every rule is converted. -/
def converted : List BodyLine → List Char
  | [] => []
  | .plain text :: lines => text ++ endLine lines (converted lines)
  | line :: lines => line.element ++ converted lines

/-- The text in which the lines down to a rank are converted, given the rank of the line above. -/
def staged (bound : Nat) (above : Option Nat) : List BodyLine → List Char
  | [] => []
  | line :: lines =>
      let rest := staged bound (line.seenRank above) lines
      if (line.seenRank above).any (bound ≤ ·) then line.element ++ rest
      else line.source ++ endLine lines rest

/-! ## Written lines -/

section Written

variable {line : BodyLine} {text : List Char} {character : Char}

theorem IsUnmarked.not_mem
    (unmarked : IsUnmarked text)
    (isMark : character ∈ '\n' :: marks) :
    character ∉ text := by
  intro among
  obtain ⟨notEnd, notMark⟩ := unmarked character among
  rcases List.mem_cons.mp isMark with rfl | isMark
  · exact notEnd rfl
  · exact notMark isMark

theorem BodyLine.rank?_lt (written : line.IsWritten) : ∀ rank ∈ line.rank?, rank < 7 := by
  rintro rank isRank
  cases line with
  | plain text => contradiction
  | heading level blanks text =>
      obtain rfl := Option.some.inj isRank
      exact Nat.lt_succ_of_le written.level_mem.2
  | rule dashes =>
      obtain rfl := Option.some.inj isRank
      decide

theorem BodyLine.element_starts
    (isRanked : line.rank? ≠ none) :
    ∃ rest, line.element = '<' :: rest := by
  cases line with
  | plain text => contradiction
  | heading level blanks text => exact ⟨_, rfl⟩
  | rule dashes => exact ⟨_, rfl⟩

/-- Neither a line nor what it becomes has a line end or a mark of a span or a link. -/
theorem BodyLine.not_mem
    (written : line.IsWritten)
    (isMark : character ∈ ['\n', '*', '_', '[']) :
    character ∉ line.source ∧ character ∉ line.element := by
  obtain ⟨isMark, notHash, notDash, notBlank, notDigit, notTag⟩ :
      character ∈ '\n' :: marks ∧ character ≠ '#' ∧ character ≠ '-' ∧
        isLineBlank character = false ∧ character.isDigit = false ∧ character ∉ "</hr>".toList := by
    simp only [List.mem_cons, List.not_mem_nil, or_false] at isMark
    rcases isMark with rfl | rfl | rfl | rfl <;> decide
  cases line with
  | plain text => exact ⟨written.1.not_mem isMark, written.1.not_mem isMark⟩
  | heading level blanks text =>
      have inLevel : character ∉ Nat.toDigits 10 level := fun among => by
        simpa [notDigit] using Nat.isDigit_of_mem_toDigits (by decide) (by decide) among
      have inBlanks : character ∉ blanks := fun among => by
        simpa [notBlank] using written.blank character among
      have inText := written.unmarked.not_mem isMark
      simp_all [BodyLine.source, BodyLine.element]
  | rule dashes => simp_all [BodyLine.source, BodyLine.element]

end Written

/-! ## Forms of written lines -/

section Forms

variable {line : BodyLine} {text : List Char} {level : Nat}

theorem headingForm?_eq_none_of_head?
    (positive : 0 < level)
    (starts : text.head? ≠ some '#') :
    headingForm? level text = none := by
  refine if_neg fun isPrefix => starts ?_
  obtain ⟨fewer, rfl⟩ := Nat.exists_eq_succ_of_ne_zero (Nat.ne_of_gt positive)
  obtain ⟨rest, rfl⟩ := List.isPrefixOf_iff_prefix.mp isPrefix
  rfl

theorem ruleForm?_eq_none_of_head?
    (starts : text.head? ≠ some '-') :
    ruleForm? text = none := by
  refine if_neg fun isRule => starts ?_
  rw [Bool.and_eq_true, decide_eq_true_eq, List.all_eq_true] at isRule
  obtain ⟨rest, kept⟩ := Text.prefix_of_trimEndWhere isLineBlank text
  cases dashes : trimLineEnd text with
  | nil => simp [dashes] at isRule
  | cons dash others =>
      obtain rfl : dash = '-' := by simpa using isRule.2 dash (by simp [dashes])
      change trimLineEnd text ++ rest = text at kept
      rw [← kept, dashes]
      rfl

/-- The marks of a level, blanks and a trimmed text are the heading of this level. -/
theorem headingForm?_heading
    {blanks : List Char}
    (isHeading : IsHeading level blanks text) :
    headingForm? level (List.replicate level '#' ++ blanks ++ text) =
      some (BodyLine.heading level blanks text).element := by
  obtain ⟨blank, others, rfl⟩ := List.exists_cons_of_ne_nil isHeading.separated
  have allBlank := List.forall_mem_cons.mp isHeading.blank
  have starts : (List.replicate level '#').isPrefixOf
      (List.replicate level '#' ++ (blank :: others) ++ text) = true := by
    rw [List.append_assoc, List.isPrefixOf_iff_prefix]
    exact List.prefix_append _ _
  have behind : (List.replicate level '#' ++ (blank :: others) ++ text).drop level =
      blank :: (others ++ text) := by
    rw [List.append_assoc, List.drop_append_of_le_length (by simp), List.drop_replicate,
      Nat.sub_self]
    rfl
  have trimmed : trimLineEnd text = text := Text.trimEndWhere_eq_self isHeading.last
  rw [headingForm?, if_pos starts, behind]
  simp only [if_pos allBlank.1, List.dropWhile_append_of_pos allBlank.2,
    Text.dropWhile_eq_self isHeading.first, trimmed]
  simp [element, BodyLine.element]

/-- A heading of another level is not converted with a level. -/
theorem headingForm?_heading_of_ne
    {other : Nat}
    {blanks : List Char}
    (isHeading : IsHeading other blanks text)
    (differs : other ≠ level) :
    headingForm? level (List.replicate other '#' ++ blanks ++ text) = none := by
  obtain ⟨blank, others, rfl⟩ := List.exists_cons_of_ne_nil isHeading.separated
  have isBlank := isHeading.blank blank List.mem_cons_self
  unfold headingForm?
  split
  · rename_i starts
    -- The character behind the marks of the level is one mark more.
    obtain ⟨rest, same⟩ := List.isPrefixOf_iff_prefix.mp starts
    rcases Nat.lt_or_gt_of_ne differs with fewer | more
    · have mark := congrArg (·[other]?) same
      simp [fewer, List.getElem?_append] at mark
      simp [← mark, isLineBlank] at isBlank
    · obtain ⟨surplus, rfl⟩ := Nat.exists_eq_add_of_lt more
      have behind : (List.replicate (level + surplus + 1) '#' ++ (blank :: others) ++ text).drop
          level = '#' :: (List.replicate surplus '#' ++ (blank :: others) ++ text) := by
        rw [Nat.add_assoc, ← List.replicate_append_replicate, List.append_assoc, List.append_assoc,
          List.drop_left' (by simp), List.replicate_succ]
        simp
      rw [behind]
      rfl
  · rfl

theorem headingForm?_source
    (positive : 0 < level)
    (written : line.IsWritten) :
    headingForm? level line.source =
      if line.rank? = some level then some line.element else none := by
  cases line with
  | plain text =>
      rw [if_neg (by simp [BodyLine.rank?])]
      exact headingForm?_eq_none positive (written.1.not_mem (by decide))
  | heading other blanks text =>
      by_cases same : other = level
      · subst same
        rw [BodyLine.rank?, if_pos rfl]
        exact headingForm?_heading written
      · rw [BodyLine.rank?, if_neg fun isLevel => same (Option.some.inj isLevel)]
        exact headingForm?_heading_of_ne written same
  | rule dashes =>
      rw [BodyLine.rank?, if_neg fun isZero => Nat.ne_of_lt positive (Option.some.inj isZero)]
      exact headingForm?_eq_none positive fun among => by simp [BodyLine.source] at among

theorem ruleForm?_source
    (written : line.IsWritten) :
    ruleForm? line.source = if line.rank? = some 0 then some line.element else none := by
  cases line with
  | plain text =>
      rw [if_neg (by simp [BodyLine.rank?])]
      exact ruleForm?_eq_none_of_head? written.2
  | heading level blanks text =>
      have positive : level ≠ 0 := Nat.ne_of_gt written.level_mem.1
      rw [BodyLine.rank?, if_neg fun isZero => positive (Option.some.inj isZero)]
      obtain ⟨fewer, rfl⟩ := Nat.exists_eq_succ_of_ne_zero positive
      exact ruleForm?_eq_none_of_head? (by simp [BodyLine.source, List.replicate_succ])
  | rule dashes =>
      have kept : trimLineEnd (List.replicate dashes '-') = List.replicate dashes '-' :=
        Text.trimEndWhere_eq_self fun dash isLast => by
          rw [List.eq_of_mem_replicate (List.mem_of_getLast? isLast)]
          rfl
      rw [BodyLine.rank?, if_pos rfl, BodyLine.source, ruleForm?, kept]
      have isRule : 3 ≤ dashes := written
      simp [isRule, BodyLine.element]

end Forms

/-! ## One conversion -/

section Conversion

variable
  {form? : List Char → Option (List Char)}
  {text : List Char}
  {lines : List BodyLine}

/-- The first line of a text is converted on its own, and its end with it. -/
theorem convertLines_endLine
    (oneLine : '\n' ∉ text)
    (lines : List BodyLine)
    (rest : List Char) :
    convertLines form? ((text ++ endLine lines rest).splitOn '\n') =
      match form? text with
      | some form => form ++
          if lines.isEmpty then [] else convertLines form? (rest.splitOn '\n')
      | none => text ++ endLine lines (convertLines form? (rest.splitOn '\n')) := by
  unfold endLine
  split
  · rw [List.append_nil, List.splitOn_eq_singleton oneLine, convertLines]
    cases form? text <;> simp
  · cases formed : form? text <;>
      simp [List.splitOn_append_cons_self_of_not_mem oneLine,
        convertLines_cons (List.splitOn_ne_nil _ rest), formed]

/-- The lines that have a rank are those that one conversion finds at a line's start. -/
structure ConvertsRank (form? : List Char → Option (List Char)) (rank : Nat) : Prop where
  /-- Elements are not converted again. -/
  ofElement : ∀ rest, form? ('<' :: rest) = none
  /-- A line is converted in its turn. -/
  ofSource : ∀ line : BodyLine, line.IsWritten →
    form? line.source = if line.rank? = some rank then some line.element else none

/-- What stands in front of a line: nothing, or elements of lines above that are converted. -/
structure StandsInFront (rank : Nat) (above : Option Nat) (front : List Char) : Prop where
  oneLine : '\n' ∉ front
  /-- It is there when the line above has been converted before. -/
  isEmpty_iff : front = [] ↔ ∀ upper ∈ above, upper ≤ rank
  isElement : ∀ first ∈ front.head?, first = '<'

theorem StandsInFront.nil
    {rank : Nat}
    {above : Option Nat}
    (notAbove : ∀ upper ∈ above, upper ≤ rank) :
    StandsInFront rank above [] where
  oneLine := List.not_mem_nil
  isEmpty_iff := iff_of_true rfl notAbove
  isElement := nofun

/-- Nothing stands in front of the first line. -/
theorem StandsInFront.start (rank : Nat) : StandsInFront rank none [] :=
  .nil fun _ isAbove => nomatch isAbove

/-- A text behind elements is not converted. -/
theorem StandsInFront.form?_eq_none
    {rank : Nat}
    {above : Option Nat}
    {front : List Char}
    (stands : StandsInFront rank above front)
    (converts : ConvertsRank form? rank)
    (nonempty : front ≠ [])
    (rest : List Char) :
    form? (front ++ rest) = none := by
  obtain ⟨first, others, rfl⟩ := List.exists_cons_of_ne_nil nonempty
  rw [stands.isElement first rfl]
  exact converts.ofElement _

/-- A line that is converted before moves in front of the next line. -/
theorem StandsInFront.element
    {rank : Nat}
    {above : Option Nat}
    {front : List Char}
    {line : BodyLine}
    (stands : StandsInFront rank above front)
    (written : line.IsWritten)
    {lineRank : Nat}
    (isRank : line.rank? = some lineRank)
    (before : rank < lineRank) :
    StandsInFront rank (some lineRank) (front ++ line.element) := by
  have isRanked : line.rank? ≠ none := by simp [isRank]
  obtain ⟨rest, starts⟩ := BodyLine.element_starts isRanked
  refine ⟨?_, iff_of_false (by simp [starts]) (by simpa using before), ?_⟩
  · rw [List.mem_append, not_or]
    exact ⟨stands.oneLine, (BodyLine.not_mem written (by decide)).2⟩
  · cases front with
    | nil => simp [starts]
    | cons first others => exact stands.isElement

theorem seenRank_eq_some
    {above : Option Nat}
    {line : BodyLine}
    {rank : Nat} :
    line.seenRank above = some rank ↔ line.rank? = some rank ∧ ∀ upper ∈ above, upper ≤ rank := by
  rw [BodyLine.seenRank, Option.filter_eq_some_iff]
  cases above <;> simp

theorem any_le_eq_false
    {rank? : Option Nat}
    {bound : Nat} :
    rank?.any (bound ≤ ·) = false ↔ ∀ rank ∈ rank?, rank < bound := by
  cases rank? <;> simp

/-- A line is converted in its turn if no element stands in front of it. -/
theorem StandsInFront.form?_source
    {rank : Nat}
    {above : Option Nat}
    {front : List Char}
    {line : BodyLine}
    (stands : StandsInFront rank above front)
    (converts : ConvertsRank form? rank)
    (written : line.IsWritten) :
    form? (front ++ line.source) =
      if line.seenRank above = some rank then some line.element else none := by
  by_cases empty : front = []
  · have notAbove := stands.isEmpty_iff.mp empty
    rw [empty, List.nil_append, converts.ofSource line written]
    simp only [seenRank_eq_some, and_iff_left notAbove]
  · rw [stands.form?_eq_none converts empty, if_neg]
    exact fun seen => empty (stands.isEmpty_iff.mpr (seenRank_eq_some.mp seen).2)

/-- The next conversion takes the lines down to a rank further to the rank itself. -/
theorem convertLines_staged
    {rank : Nat}
    (converts : ConvertsRank form? rank)
    (written : ∀ line ∈ lines, line.IsWritten)
    {above : Option Nat}
    {front : List Char}
    (stands : StandsInFront rank above front) :
    convertLines form? ((front ++ staged (rank + 1) above lines).splitOn '\n') =
      front ++ staged rank above lines := by
  -- The induction is on the lines; what is converted before moves into `front`.
  induction lines generalizing above front with
  | nil =>
      have noForm : form? (front ++ []) = none :=
        (@stands.form?_source _ _ _ _ (.plain []) converts ⟨nofun, nofun⟩).trans (if_neg nofun)
      have alone := @convertLines_endLine form? (front ++ []) (by simpa using stands.oneLine) [] []
      rw [noForm] at alone
      simpa [endLine, staged] using alone
  | cons line lines inductionHypothesis =>
      rw [List.forall_mem_cons] at written
      by_cases before : ∃ lineRank, line.seenRank above = some lineRank ∧ rank < lineRank
      · obtain ⟨lineRank, seen, before⟩ := before
        have stands := stands.element written.1 (seenRank_eq_some.mp seen).1 before
        simp only [staged, seen, Option.any_some, decide_eq_true_eq]
        rw [if_pos (Nat.succ_le_of_lt before), if_pos before.le, ← List.append_assoc,
          ← List.append_assoc]
        exact inductionHypothesis written.2 stands
      · have notBefore : ∀ lineRank ∈ line.seenRank above, lineRank ≤ rank := fun lineRank seen =>
          Nat.le_of_not_lt fun later => before ⟨lineRank, seen, later⟩
        have notYet : (line.seenRank above).any (rank + 1 ≤ ·) = false :=
          any_le_eq_false.mpr fun lineRank seen => Nat.lt_succ_of_le (notBefore lineRank seen)
        have oneLine : '\n' ∉ front ++ line.source := by
          rw [List.mem_append, not_or]
          exact ⟨stands.oneLine, (BodyLine.not_mem written.1 (by decide)).1⟩
        -- The next line starts a line, whether this one is converted or not.
        have next := inductionHypothesis written.2 (.nil notBefore)
        rw [List.nil_append, List.nil_append] at next
        rw [staged, notYet, if_neg Bool.false_ne_true, ← List.append_assoc,
          convertLines_endLine oneLine, stands.form?_source converts written.1, next, staged]
        by_cases inTurn : line.seenRank above = some rank
        · have isFirst : front = [] := stands.isEmpty_iff.mpr (seenRank_eq_some.mp inTurn).2
          cases lines <;> simp [inTurn, isFirst, staged]
        · have notNow : (line.seenRank above).any (rank ≤ ·) = false :=
            any_le_eq_false.mpr fun lineRank seen =>
              Nat.lt_of_le_of_ne (notBefore lineRank seen) fun same => inTurn (same ▸ seen)
          rw [if_neg inTurn, notNow, if_neg Bool.false_ne_true, List.append_assoc]

end Conversion

/-! ## All conversions -/

section Transform

variable {lines : List BodyLine} {above : Option Nat}

theorem convertsRank_heading
    {level : Nat}
    (positive : 0 < level) :
    ConvertsRank (headingForm? level) level where
  ofElement _ := headingForm?_eq_none_of_head? positive (by simp)
  ofSource _ := headingForm?_source positive

theorem convertsRank_rule : ConvertsRank ruleForm? 0 where
  ofElement _ := ruleForm?_eq_none_of_head? (by simp)
  ofSource _ := ruleForm?_source

/-- Before the first conversion the text is that of the lines. -/
theorem staged_eq_sourceOf
    (written : ∀ line ∈ lines, line.IsWritten)
    (above : Option Nat) :
    staged 7 above lines = sourceOf lines := by
  induction lines generalizing above with
  | nil => rfl
  | cons line lines inductionHypothesis =>
      rw [List.forall_mem_cons] at written
      have later : (line.seenRank above).any (7 ≤ ·) = false :=
        any_le_eq_false.mpr fun rank seen =>
          BodyLine.rank?_lt written.1 rank (seenRank_eq_some.mp seen).1
      rw [staged, later, inductionHypothesis written.2, sourceOf, sourceOf]
      cases lines with
      | nil => simp [endLine]
      | cons next lines => simp [endLine, List.intercalate_cons_cons]

theorem foldl_convertHeadings_sourceOf
    (written : ∀ line ∈ lines, line.IsWritten) :
    headingLevels.foldl convertHeadings (sourceOf lines) = staged 1 none lines := by
  have next {level upper : Nat} (positive : 0 < level) (isNext : upper = level + 1) :
      convertHeadings (staged upper none lines) level = staged level none lines := by
    subst isNext
    exact convertLines_staged (convertsRank_heading positive) written (.start level)
  rw [← staged_eq_sourceOf written none]
  simp only [headingLevels, List.foldl_cons, List.foldl_nil]
  iterate 6 rw [next (by decide) rfl]

/-- The text of lines has no characters that neither the lines nor their elements have. -/
theorem not_mem_staged
    {character : Char}
    (notEnd : character ≠ '\n')
    (absent : ∀ line ∈ lines, character ∉ line.source ∧ character ∉ line.element)
    (bound : Nat) :
    character ∉ staged bound above lines := by
  induction lines generalizing above with
  | nil => exact List.not_mem_nil
  | cons line lines inductionHypothesis =>
      rw [List.forall_mem_cons] at absent
      have rest := @inductionHypothesis (line.seenRank above) absent.2
      rw [staged]
      split
      · simp [absent.1.2, rest]
      · unfold endLine
        split <;> simp [absent.1.1, notEnd, rest]

theorem convertSpansAndLines_sourceOf
    (written : ∀ line ∈ lines, line.IsWritten) :
    convertSpansAndLines (sourceOf lines) = staged 0 none lines := by
  have noMark (mark : Char) (isMark : mark ∈ ['*', '_']) : mark ∉ staged 1 none lines := by
    have isMark : mark ∈ ['\n', '*', '_', '['] ∧ mark ≠ '\n' := by
      simp only [List.mem_cons, List.not_mem_nil, or_false] at isMark
      rcases isMark with rfl | rfl <;> decide
    exact not_mem_staged isMark.2
      (fun line among => BodyLine.not_mem (written line among) isMark.1) 1
  have rules := convertLines_staged convertsRank_rule written (.start 0)
  rw [convertSpansAndLines, foldl_convertHeadings_sourceOf written]
  change convertRules (convertSpans underline (convertSpans italic (convertSpans bold _))) = _
  rw [convertSpans_eq_self rfl (noMark '*' (by decide)),
    convertSpans_eq_self rfl (noMark '*' (by decide)),
    convertSpans_eq_self rfl (noMark '_' (by decide))]
  exact rules

theorem BodyLine.not_hides_iff
    {upper lower : BodyLine}
    (written : upper.IsWritten) :
    ¬upper.Hides lower ↔
      ∀ upperRank ∈ upper.rank?, ∀ lowerRank ∈ lower.rank?, upperRank ≤ lowerRank := by
  constructor
  · intro notHides upperRank isUpper lowerRank isLower
    refine Nat.le_of_not_lt fun fewer => notHides ?_
    cases upper with
    | plain text => contradiction
    | rule dashes =>
        obtain rfl := Option.some.inj isUpper
        contradiction
    | heading level blanks text =>
        obtain rfl := Option.some.inj isUpper
        cases lower with
        | plain other => contradiction
        | heading lowerLevel otherBlanks other =>
            obtain rfl := Option.some.inj isLower
            exact .heading fewer
        | rule dashes => exact .rule _ _ _ _
  · rintro notLess hides
    cases hides with
    | heading fewer => exact Nat.not_le_of_gt fewer (notLess _ rfl _ rfl)
    | rule level => exact Nat.not_le_of_gt written.level_mem.1 (notLess _ rfl _ rfl)

theorem BodyLine.eq_plain_of_rank?_eq_none
    {line : BodyLine}
    (noRank : line.rank? = none) :
    ∃ text, line = .plain text := by
  cases line with
  | plain text => exact ⟨text, rfl⟩
  | heading level blanks text => contradiction
  | rule dashes => contradiction

theorem converted_of_rank?_eq_some
    {line : BodyLine}
    {rank : Nat}
    (isRank : line.rank? = some rank) :
    converted (line :: lines) = line.element ++ converted lines := by
  cases line with
  | plain text => contradiction
  | heading level blanks text => rfl
  | rule dashes => rfl

/-- A line with a rank is not written as an element. -/
theorem BodyLine.head?_source_ne
    {line : BodyLine}
    {rank : Nat}
    (written : line.IsWritten)
    (isRank : line.rank? = some rank)
    (rest : List Char) :
    (line.source ++ rest).head? ≠ some '<' := by
  cases line with
  | plain text => contradiction
  | heading level blanks text =>
      obtain ⟨fewer, rfl⟩ := Nat.exists_eq_add_of_lt written.level_mem.1
      simp [BodyLine.source, List.replicate_succ]
  | rule dashes =>
      obtain ⟨fewer, rfl⟩ := Nat.exists_eq_add_of_le written
      simp [BodyLine.source, Nat.add_comm 3, List.replicate_succ]

/-- All lines are converted when none is below a line of greater rank. -/
theorem staged_eq_converted_iff
    (written : ∀ line ∈ lines, line.IsWritten) :
    staged 0 above lines = converted lines ↔
      (above :: lines.map BodyLine.rank?).IsChain fun upper lower =>
        ∀ upperRank ∈ upper, ∀ lowerRank ∈ lower, upperRank ≤ lowerRank := by
  induction lines generalizing above with
  | nil => simp [staged, converted]
  | cons line lines inductionHypothesis =>
      rw [List.forall_mem_cons] at written
      rw [List.map_cons, List.isChain_cons_cons, staged]
      cases isRank : line.rank? with
      | none =>
          obtain ⟨text, rfl⟩ := BodyLine.eq_plain_of_rank?_eq_none isRank
          have next := @inductionHypothesis none written.2
          have unseen : (BodyLine.plain text).seenRank above = none := rfl
          rw [unseen, ← next]
          cases lines with
          | nil => simp [staged, converted, endLine, BodyLine.source]
          | cons following lines => simp [converted, endLine, BodyLine.source]
      | some rank =>
          have next := @inductionHypothesis (some rank) written.2
          by_cases notAbove : ∀ upper ∈ above, upper ≤ rank
          · have seen := seenRank_eq_some.mpr ⟨isRank, notAbove⟩
            rw [seen, converted_of_rank?_eq_some isRank, ← next]
            simpa using fun _ => notAbove
          · have unseen : line.seenRank above = none :=
              Option.eq_none_iff_forall_ne_some.mpr fun other seen => by
                obtain ⟨isOther, notOther⟩ := seenRank_eq_some.mp seen
                obtain rfl := Option.some.inj (isRank.symm.trans isOther)
                exact notAbove notOther
            have isRanked : line.rank? ≠ none := by simp [isRank]
            obtain ⟨rest, starts⟩ := BodyLine.element_starts isRanked
            rw [unseen, converted_of_rank?_eq_some isRank, starts]
            refine iff_of_false (fun same => ?_) fun ⟨notHidden, _⟩ => notAbove fun upper isAbove =>
              notHidden upper isAbove rank rfl
            exact BodyLine.head?_source_ne written.1 isRank _ (congrArg List.head? same)

theorem isChain_not_hides_iff
    (written : ∀ line ∈ lines, line.IsWritten) :
    (lines.IsChain fun upper lower => ¬upper.Hides lower) ↔
      (none :: lines.map BodyLine.rank?).IsChain fun upper lower =>
        ∀ upperRank ∈ upper, ∀ lowerRank ∈ lower, upperRank ≤ lowerRank := by
  have first : (none :: lines.map BodyLine.rank?).IsChain (fun upper lower =>
      ∀ upperRank ∈ upper, ∀ lowerRank ∈ lower, upperRank ≤ lowerRank) ↔
        (lines.map BodyLine.rank?).IsChain fun upper lower =>
          ∀ upperRank ∈ upper, ∀ lowerRank ∈ lower, upperRank ≤ lowerRank := by
    cases lines with
    | nil => simp
    | cons line lines => simp [List.isChain_cons_cons]
  rw [first, List.isChain_map]
  exact List.IsChain.iff_of_mem_imp fun upper _ isUpper _ =>
    BodyLine.not_hides_iff (written upper isUpper)

/--
Of any lines of plain text, headings and rules, those are converted that start a line in their
turn.  These are all of them exactly if no heading hides a line right below it: a rule, or a heading
with fewer marks.
-/
theorem transform_sourceOf
    (written : ∀ line ∈ lines, line.IsWritten)
    (isImage : Classifier) :
    transform (.ofList (sourceOf lines)) isImage = .ofList (staged 0 none lines) ∧
      (transform (.ofList (sourceOf lines)) isImage = .ofList (converted lines) ↔
        lines.IsChain fun upper lower => ¬upper.Hides lower) := by
  have noBracket : '[' ∉ staged 0 none lines :=
    not_mem_staged (by decide)
      (fun line among => BodyLine.not_mem (written line among) (by decide)) 0
  have exact : transform (.ofList (sourceOf lines)) isImage = .ofList (staged 0 none lines) := by
    rw [transform_eq, String.toList_ofList, convertSpansAndLines_sourceOf written,
      inlines_eq_map noBracket, List.flatMap_map]
    simp [Inline.render]
  refine ⟨exact, ?_⟩
  rw [exact, isChain_not_hides_iff written, ← staged_eq_converted_iff written]
  exact String.ofList_inj

/-- Below a heading with fewer marks, a heading is converted. -/
theorem transform_sourceOf_rising :
    let lines : List BodyLine := [.heading 1 [' '] ['a'], .heading 6 ['\t'] ['b'], .plain ['c'],
      .rule 3, .rule 4]
    (∀ line ∈ lines, line.IsWritten) ∧
      transform "# a\n######\tb\nc\n---\n----" (fun _ => false) =
        "<h1>a</h1><h6>b</h6>c\n<hr><hr>" := by
  intro lines
  have written : ∀ line ∈ lines, line.IsWritten := by
    simp only [lines, List.forall_mem_cons]
    refine ⟨?_, ?_, ?_, ?_, ?_, nofun⟩
    · constructor <;> simp [isLineBlank, IsUnmarked, marks]
    · constructor <;> simp [isLineBlank, IsUnmarked, marks]
    · constructor <;> simp [IsUnmarked, marks]
    · exact Nat.le_refl 3
    · exact Nat.le_succ 3
  exact ⟨written, (transform_sourceOf written fun _ => false).1⟩

/-- Below a heading with more marks, a heading and a rule stay as they are written. -/
theorem transform_below_deeper_heading :
    transform "###### a\n# b" (fun _ => false) = "<h6>a</h6># b" ∧
      transform "# a\n---" (fun _ => false) = "<h1>a</h1>---" ∧
      String.ofList (sourceOf [.heading 6 [' '] ['a'], .heading 1 [' '] ['b']]) = "###### a\n# b" ∧
      String.ofList (converted [.heading 6 [' '] ['a'], .heading 1 [' '] ['b']]) =
        "<h6>a</h6><h1>b</h1>" := by
  refine ⟨by cbv, by cbv, by rfl, by rfl⟩

end Transform

end Document
end TemplatedMarkup
