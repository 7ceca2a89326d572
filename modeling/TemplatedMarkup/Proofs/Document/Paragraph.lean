import TemplatedMarkup.Document.Paragraph
import TemplatedMarkup.Proofs.Template.Piece
import TemplatedMarkup.Proofs.Text.Html
import TemplatedMarkup.Proofs.Text.Occurrence

/-!
# Paragraphs

A text has one cut at its maximal runs of two or more line feeds, and its paragraphs are the
segments of that cut.  They are put between tags of HTML, and every line feed within one becomes
such a tag: the only line feeds that remain are the blank lines between paragraphs, and no delimiter
of a template opens that does not open in the text.
-/

namespace TemplatedMarkup
namespace Document

open Template
open Text (not_infix_append_of_pair pieces pieces_intercalate replace replace_append replace_cons)

/-! ## Line ends -/

section LineEnds

variable {text : List Char}

/-- Line ends are written anew by two replacements, one after the other. -/
theorem normalizeLineEnds_eq_replace (text : List Char) :
    normalizeLineEnds text = replace ['\r'] ['\n'] (replace ['\r', '\n'] ['\n'] text) := by
  have both := replace_append (List.cons_ne_nil '\r' ['\n']) ['\n']
  have alone := replace_append (List.cons_ne_nil '\r' []) ['\n']
  fun_induction normalizeLineEnds text with
  | case1 rest inductionHypothesis =>
      have isKept : ¬['\r'] <+: '\n' :: replace ['\r', '\n'] ['\n'] rest := by simp
      calc
        '\n' :: normalizeLineEnds rest
            = replace ['\r'] ['\n'] ('\n' :: replace ['\r', '\n'] ['\n'] rest) := by
              rw [inductionHypothesis, replace_cons isKept]
        _ = replace ['\r'] ['\n'] (replace ['\r', '\n'] ['\n'] ('\r' :: '\n' :: rest)) :=
              congrArg _ (both rest).symm
  | case2 rest noLineFeed inductionHypothesis =>
      have isKept : ¬['\r', '\n'] <+: '\r' :: rest := by
        rintro ⟨behind, same⟩
        exact noLineFeed behind (List.cons.inj same).2.symm
      rw [replace_cons isKept, inductionHypothesis]
      exact (alone _).symm
  | case3 character rest _ noReturn inductionHypothesis =>
      have isKept : ¬['\r', '\n'] <+: character :: rest :=
        Text.not_prefix_of_ne (Ne.symm noReturn)
      have isKeptAgain : ¬['\r'] <+: character :: replace ['\r', '\n'] ['\n'] rest :=
        Text.not_prefix_of_ne (Ne.symm noReturn)
      rw [replace_cons isKept, replace_cons isKeptAgain, inductionHypothesis]
  | case4 => simp

/-- Writing the line ends anew brings no character in but the line feed. -/
theorem mem_of_mem_normalizeLineEnds
    {character : Char}
    (among : character ∈ normalizeLineEnds text) :
    character = '\n' ∨ character ∈ text := by
  fun_induction normalizeLineEnds text
  case case4 => exact .inr among
  all_goals
    simp only [List.mem_cons] at among ⊢
    tauto

theorem return_not_mem_normalizeLineEnds (text : List Char) : '\r' ∉ normalizeLineEnds text := by
  fun_induction normalizeLineEnds text with
  | case1 rest inductionHypothesis => simpa using inductionHypothesis
  | case2 rest _ inductionHypothesis => simpa using inductionHypothesis
  | case3 character rest _ noReturn inductionHypothesis =>
      rw [List.mem_cons, not_or]
      exact ⟨Ne.symm noReturn, inductionHypothesis⟩
  | case4 => exact List.not_mem_nil

/-- A tag stands for every line feed. -/
theorem breakLines_eq_replace (text : List Char) :
    breakLines text = replace ['\n'] "<br>".toList text := by
  induction text with
  | nil => simp [breakLines]
  | cons character text inductionHypothesis =>
      rw [breakLines, List.flatMap_cons]
      split
      · rename_i isLineFeed
        subst isLineFeed
        exact (congrArg _ inductionHypothesis).trans
          (replace_append (List.cons_ne_nil '\n' []) _ text).symm
      · rename_i noLineFeed
        rw [replace_cons (Text.not_prefix_of_ne (Ne.symm noLineFeed))]
        exact congrArg _ inductionHypothesis

theorem mem_breakLines_iff
    {character : Char}
    (noTag : character ∉ "<br>".toList) :
    character ∈ breakLines text ↔ character ≠ '\n' ∧ character ∈ text := by
  rw [breakLines, List.mem_flatMap]
  constructor
  · rintro ⟨written, among, inside⟩
    split at inside
    · exact absurd inside noTag
    · obtain rfl := List.mem_singleton.mp inside
      exact ⟨‹_›, among⟩
  · rintro ⟨noLineFeed, among⟩
    exact ⟨character, among, by simp [noLineFeed]⟩

theorem mem_markParagraph_iff
    {character : Char}
    (noTag : character ∉ "<p></p><br>".toList) :
    character ∈ markParagraph text ↔ character ≠ '\n' ∧ character ∈ text := by
  have parts : "<p></p><br>".toList = "<p>".toList ++ ("</p>".toList ++ "<br>".toList) := by decide
  rw [parts, List.mem_append, List.mem_append, not_or, not_or] at noTag
  obtain ⟨notOpening, notClosing, notBreak⟩ := noTag
  rw [markParagraph, List.mem_append, List.mem_append, or_iff_left notClosing,
    or_iff_right notOpening, mem_breakLines_iff notBreak]

end LineEnds

/-! ## The cut into paragraphs -/

/-- A text is cut at its maximal runs of two or more line feeds into some segments. -/
inductive CutsAtRuns : List Char → List (List Char) → Prop
  | uncut {segment : List Char} :
      ¬['\n', '\n'] <:+: segment → CutsAtRuns segment [segment]
  | run {segment rest : List Char} {segments : List (List Char)} {length : Nat} :
      ¬['\n', '\n'] <:+: segment → segment.getLast? ≠ some '\n' →
      2 ≤ length → rest.head? ≠ some '\n' → CutsAtRuns rest segments →
        CutsAtRuns (segment ++ List.replicate length '\n' ++ rest) (segment :: segments)

section Cut

variable
  {front piece rest text : List Char}
  {segments : List (List Char)}
  {character : Char}

/-- The line feeds at the start of a text are a maximal run. -/
theorem exists_replicate_dropWhile (text : List Char) :
    ∃ length : Nat, text = List.replicate length '\n' ++ text.dropWhile (· == '\n') ∧
      (text.dropWhile (· == '\n')).head? ≠ some '\n' := by
  refine ⟨(text.takeWhile (· == '\n')).length, ?_, fun startsWith => ?_⟩
  · have isRun : ∀ character ∈ text.takeWhile (· == '\n'), character = '\n' := by
      intro character among
      simpa using List.mem_takeWhile_imp among
    rw [← List.eq_replicate_of_mem isRun, List.takeWhile_append_dropWhile]
  · have ends := List.head?_dropWhile_not (· == '\n') text
    rw [startsWith] at ends
    exact absurd ends (by decide)

/-- A character behind which the text is not cut belongs to the started paragraph. -/
theorem paragraphsFrom_cons
    (uncut : ¬(character = '\n' ∧ rest.head? = some '\n'))
    (piece : List Char) :
    paragraphsFrom piece (character :: rest) = paragraphsFrom (character :: piece) rest := by
  rw [paragraphsFrom]
  rintro behind rfl rfl
  exact uncut ⟨rfl, rfl⟩

/-- A text without two line feeds in a row, at whose end no run starts, is not cut. -/
theorem paragraphsFrom_append
    (uncut : ¬['\n', '\n'] <:+: front)
    (apart : front.getLast? ≠ some '\n' ∨ rest.head? ≠ some '\n')
    (piece : List Char) :
    paragraphsFrom piece (front ++ rest) = paragraphsFrom (front.reverse ++ piece) rest := by
  induction front generalizing piece with
  | nil => rfl
  | cons character front inductionHypothesis =>
      rw [List.infix_cons_iff, not_or] at uncut
      have continues : ¬(character = '\n' ∧ (front ++ rest).head? = some '\n') := by
        rintro ⟨rfl, startsWith⟩
        cases front with
        | nil => exact apart.elim (· rfl) (· startsWith)
        | cons next front =>
            obtain rfl : next = '\n' := Option.some.inj startsWith
            exact uncut.1 (List.prefix_append ['\n', '\n'] front)
      have apartBehind : front.getLast? ≠ some '\n' ∨ rest.head? ≠ some '\n' := by
        refine apart.imp_left fun noLineFeed isLast => noLineFeed ?_
        rw [List.getLast?_cons, isLast]
        rfl
      rw [List.cons_append, paragraphsFrom_cons continues, inductionHypothesis uncut.2 apartBehind,
        List.reverse_cons, List.append_assoc]
      rfl

/-- A run of line feeds ends the started paragraph. -/
theorem paragraphsFrom_replicate_append
    {length : Nat}
    (isRun : 2 ≤ length)
    (starts : rest.head? ≠ some '\n')
    (piece : List Char) :
    paragraphsFrom piece (List.replicate length '\n' ++ rest) =
      piece.reverse :: paragraphsFrom [] rest := by
  obtain ⟨others, rfl⟩ := Nat.exists_eq_add_of_le' isRun
  have dropped : (List.replicate others '\n' ++ rest).dropWhile (· == '\n') = rest := by
    rw [List.dropWhile_append_of_pos (by simp)]
    cases rest with
    | nil => rfl
    | cons next rest => exact List.dropWhile_cons_of_neg (by simpa using starts)
  rw [List.replicate_succ, List.replicate_succ, List.cons_append, List.cons_append,
    paragraphsFrom, dropped]

/-- The paragraphs are the segments of a cut, if the started one is not cut itself. -/
theorem cutsAtRuns_paragraphsFrom
    (uncut : ¬['\n', '\n'] <:+: piece.reverse)
    (apart : piece.head? ≠ some '\n' ∨ text.head? ≠ some '\n') :
    CutsAtRuns (piece.reverse ++ text) (paragraphsFrom piece text) := by
  fun_induction paragraphsFrom piece text with
  | case1 piece =>
      rw [List.append_nil]
      exact .uncut uncut
  | case2 piece rest inductionHypothesis =>
      obtain ⟨length, isRun, ends⟩ := exists_replicate_dropWhile rest
      have behind := inductionHypothesis (by simp) (.inl nofun)
      have isCut : piece.reverse ++ '\n' :: '\n' :: rest =
          piece.reverse ++ List.replicate (length + 2) '\n' ++ rest.dropWhile (· == '\n') := by
        conv_lhs => rw [isRun]
        simp [List.replicate_succ]
      rw [isCut]
      refine .run uncut ?_ (Nat.le_add_left 2 length) ends behind
      rw [List.getLast?_reverse]
      exact apart.resolve_right (fun noLineFeed => noLineFeed rfl)
  | case3 piece character rest continues inductionHypothesis =>
      rw [List.reverse_cons, List.append_assoc] at inductionHypothesis
      refine inductionHypothesis (not_infix_append_of_pair uncut ?_ ?_) ?_
      · exact fun inside => absurd inside.length_le (by simp)
      · rw [List.getLast?_reverse]
        exact apart
      · by_cases isLineFeed : character = '\n'
        · refine .inr fun startsWith => ?_
          obtain ⟨behind, isBehind⟩ := List.head?_eq_some_iff.mp startsWith
          exact continues behind isLineFeed isBehind
        · exact .inl fun isFirst => isLineFeed (Option.some.inj isFirst)

/-- A text has one cut at its runs of line feeds: its paragraphs. -/
theorem cutsAtRuns_iff : CutsAtRuns text segments ↔ segments = paragraphsFrom [] text := by
  constructor
  · intro isCut
    induction isCut with
    | @uncut segment uncut =>
        have noRun : ([] : List Char).head? ≠ some '\n' := nofun
        calc
          [segment]
              = paragraphsFrom (segment.reverse ++ []) [] := by
                rw [List.append_nil, paragraphsFrom, List.reverse_reverse]
          _ = paragraphsFrom [] (segment ++ []) :=
                (paragraphsFrom_append uncut (.inr noRun) []).symm
          _ = paragraphsFrom [] segment := by rw [List.append_nil]
    | run uncut ends isRun starts _ inductionHypothesis =>
        rw [List.append_assoc, paragraphsFrom_append uncut (.inl ends), List.append_nil,
          paragraphsFrom_replicate_append isRun starts, List.reverse_reverse, inductionHypothesis]
  · rintro rfl
    have uncut : ¬['\n', '\n'] <:+: ([] : List Char).reverse := by simp
    exact cutsAtRuns_paragraphsFrom uncut (.inl nofun)

end Cut

/-! ## Delimiters -/

section Paragraphs

variable {text : List Char}

/-- A line feed opens no delimiter. -/
theorem openMark_ne_lineFeed (kind : DelimitedKind) : kind.openMark ≠ '\n' := by
  cases kind <;> decide

/-- A tag of HTML opens no delimiter. -/
theorem openMark_ne_less (kind : DelimitedKind) : kind.openMark ≠ '<' := by
  cases kind <;> decide

/-- Line ends written as line feeds start with what starts the text, or with a line feed. -/
theorem head?_normalizeLineEnds (text : List Char) :
    (normalizeLineEnds text).head? = text.head? ∨
      (normalizeLineEnds text).head? = some '\n' := by
  unfold normalizeLineEnds
  split <;> simp

theorem hasNoOpening_normalizeLineEnds
    (noOpening : HasNoOpening text) :
    HasNoOpening (normalizeLineEnds text) := by
  fun_induction normalizeLineEnds text with
  | case1 rest inductionHypothesis =>
      have isSuffix := (List.suffix_cons '\n' rest).trans (List.suffix_cons '\r' _)
      exact (inductionHypothesis (noOpening.ofPart isSuffix.isInfix)).cons (by simp)
  | case2 rest _ inductionHypothesis =>
      exact (inductionHypothesis (noOpening.ofPart (List.suffix_cons _ _).isInfix)).cons (by simp)
  | case3 character rest _ _ inductionHypothesis =>
      refine (inductionHypothesis (noOpening.ofPart (List.suffix_cons _ _).isInfix)).cons ?_
      rintro rfl kind opens
      rcases head?_normalizeLineEnds rest with same | isLineFeed
      · rw [same] at opens
        obtain ⟨behind, rfl⟩ := List.head?_eq_some_iff.mp opens
        exact noOpening kind ⟨[], behind, rfl⟩
      · rw [isLineFeed] at opens
        exact openMark_ne_lineFeed kind (Option.some.inj opens).symm
  | case4 => exact noOpening

/-- There is always a paragraph. -/
theorem paragraphsFrom_ne_nil (piece text : List Char) : paragraphsFrom piece text ≠ [] := by
  fun_induction paragraphsFrom piece text with
  | case1 => exact List.cons_ne_nil _ _
  | case2 => exact List.cons_ne_nil _ _
  | case3 _ _ _ _ inductionHypothesis => exact inductionHypothesis

/-- A paragraph is a part of its text. -/
theorem infix_of_mem_paragraphsFrom
    {piece paragraph : List Char}
    (among : paragraph ∈ paragraphsFrom piece text) :
    paragraph <:+: piece.reverse ++ text := by
  fun_induction paragraphsFrom piece text with
  | case1 piece =>
      rw [List.mem_singleton.mp among, List.append_nil]
  | case2 piece rest inductionHypothesis =>
      rcases List.mem_cons.mp among with rfl | later
      · exact ⟨[], _, rfl⟩
      · have inRest := inductionHypothesis later
        rw [List.reverse_nil, List.nil_append] at inRest
        have isSuffix : rest.dropWhile (· == '\n') <:+ piece.reverse ++ '\n' :: '\n' :: rest :=
          (List.dropWhile_suffix _).trans
            (((List.suffix_cons _ _).trans (List.suffix_cons _ _)).trans
              (List.suffix_append _ _))
        exact inRest.trans isSuffix.isInfix
  | case3 piece character rest _ inductionHypothesis =>
      simpa using inductionHypothesis among

theorem hasNoOpening_breakLines
    (noOpening : HasNoOpening text) :
    HasNoOpening (breakLines text) := by
  induction text with
  | nil => exact noOpening
  | cons character text inductionHypothesis =>
      have noOpeningBehind := noOpening.ofPart (List.suffix_cons _ _).isInfix
      rw [breakLines, List.flatMap_cons]
      split
      · exact HasNoOpening.append_of_getLast?_ne (hasNoOpening_of_not_mem (by decide))
          (inductionHypothesis noOpeningBehind) (by decide)
      · refine (inductionHypothesis noOpeningBehind).cons ?_
        rintro rfl kind opens
        cases text with
        | nil => simp [breakLines] at opens
        | cons next text =>
            rw [breakLines, List.flatMap_cons] at opens
            split at opens
            · exact openMark_ne_less kind (Option.some.inj opens).symm
            · obtain rfl : next = kind.openMark := Option.some.inj opens
              exact noOpening kind ⟨[], text, rfl⟩

theorem hasNoOpening_markParagraph
    (noOpening : HasNoOpening text) :
    HasNoOpening (markParagraph text) := by
  refine HasNoOpening.append
    (HasNoOpening.append_of_getLast?_ne (hasNoOpening_of_not_mem (by decide))
      (hasNoOpening_breakLines noOpening) (by decide))
    (hasNoOpening_of_not_mem (by decide)) fun _ kind opens => ?_
  exact openMark_ne_less kind (Option.some.inj opens).symm

theorem getLast?_markParagraph (text : List Char) :
    (markParagraph text).getLast? = some '>' := by
  rw [markParagraph, List.getLast?_append]
  rfl

/-- Marked paragraphs with a blank line between them end as the last of them does. -/
theorem getLast?_intercalate_markParagraph
    {paragraphs : List (List Char)}
    (nonempty : paragraphs ≠ []) :
    ("\n\n".toList.intercalate (paragraphs.map markParagraph)).getLast? = some '>' := by
  induction paragraphs with
  | nil => exact absurd rfl nonempty
  | cons paragraph others inductionHypothesis =>
      cases others with
      | nil =>
          rw [List.map_singleton, List.intercalate_singleton, getLast?_markParagraph]
      | cons next others =>
          have isLast := inductionHypothesis (List.cons_ne_nil _ _)
          rw [List.map_cons] at isLast
          rw [List.map_cons, List.map_cons, List.intercalate_cons_cons, List.getLast?_append,
            isLast]
          rfl

theorem hasNoOpening_intercalate_markParagraph
    {paragraphs : List (List Char)}
    (noOpening : ∀ paragraph ∈ paragraphs, HasNoOpening paragraph) :
    HasNoOpening ("\n\n".toList.intercalate (paragraphs.map markParagraph)) := by
  induction paragraphs with
  | nil => exact hasNoOpening_of_not_mem (by decide)
  | cons paragraph others inductionHypothesis =>
      rw [List.forall_mem_cons] at noOpening
      have first := hasNoOpening_markParagraph noOpening.1
      cases others with
      | nil => rwa [List.map_singleton, List.intercalate_singleton]
      | cons next others =>
          have behind := inductionHypothesis noOpening.2
          rw [List.map_cons] at behind
          have separated : HasNoOpening ("\n\n".toList ++
              "\n\n".toList.intercalate (markParagraph next :: others.map markParagraph)) :=
            HasNoOpening.append_of_getLast?_ne (hasNoOpening_of_not_mem (by decide)) behind
              (by decide)
          rw [List.map_cons, List.map_cons, List.intercalate_cons_cons, List.append_assoc]
          exact first.append_of_getLast?_ne separated
            (by rw [getLast?_markParagraph]; decide)

/-- Paragraphs open a delimiter only where their text does. -/
theorem hasNoOpening_linebreaks
    {text : String}
    (noOpening : HasNoOpening text.toList) :
    HasNoOpening (linebreaks text).toList := by
  rw [linebreaks, String.toList_ofList]
  refine hasNoOpening_intercalate_markParagraph fun paragraph among => ?_
  have isPart := infix_of_mem_paragraphsFrom among
  rw [List.reverse_nil, List.nil_append] at isPart
  exact (hasNoOpening_normalizeLineEnds noOpening).ofPart isPart

theorem getLast?_linebreaks (text : String) :
    (linebreaks text).toList.getLast? = some '>' := by
  rw [linebreaks, String.toList_ofList]
  refine getLast?_intercalate_markParagraph ?_
  exact paragraphsFrom_ne_nil [] _

end Paragraphs

/-! ## Texts in paragraphs -/

/-- A segment of a text as a paragraph: tags around it, and one for every line feed. -/
def asParagraph (segment : List Char) : List Char :=
  "<p>".toList ++ replace ['\n'] "<br>".toList segment ++ "</p>".toList

/-- No carriage return is left in a paragraph of a text. -/
theorem return_not_mem_paragraphs
    {text paragraph : List Char}
    (among : paragraph ∈ paragraphs text) :
    '\r' ∉ paragraph := by
  have isPart := infix_of_mem_paragraphsFrom among
  rw [List.reverse_nil, List.nil_append] at isPart
  exact fun inside => return_not_mem_normalizeLineEnds text (isPart.subset inside)

/--
The text in paragraphs, exactly.  With its line ends written as line feeds, a text has one cut at
its maximal runs of two or more of them.  The segments of this cut are written in order, each as a
paragraph, with a blank line between them.  So no line feed is within a paragraph, no carriage
return is left at all, and the blank lines cut the result into the paragraphs again.
-/
theorem linebreaks_exact (text : String) :
    ∃ segments : List (List Char),
      (∀ others, CutsAtRuns
        (replace ['\r'] ['\n'] (replace "\r\n".toList ['\n'] text.toList)) others ↔
          others = segments) ∧
      (linebreaks text).toList = "\n\n".toList.intercalate (segments.map asParagraph) ∧
      (∀ segment ∈ segments, '\n' ∉ asParagraph segment) ∧
      '\r' ∉ (linebreaks text).toList ∧
      pieces "\n\n".toList (linebreaks text).toList = segments.map asParagraph := by
  have isMarked : markParagraph = asParagraph := by
    funext segment
    rw [markParagraph, breakLines_eq_replace, asParagraph]
  have written : (linebreaks text).toList =
      "\n\n".toList.intercalate ((paragraphs text.toList).map asParagraph) := by
    rw [linebreaks, String.toList_ofList, isMarked]
  have noLineFeed : ∀ segment, '\n' ∉ asParagraph segment := by
    intro segment
    rw [← isMarked, mem_markParagraph_iff (by decide)]
    exact fun inside => inside.1 rfl
  refine ⟨paragraphs text.toList, fun others => ?_, written, fun segment _ => noLineFeed segment,
    fun among => ?_, ?_⟩
  · rw [paragraphs, normalizeLineEnds_eq_replace]
    exact cutsAtRuns_iff
  · rw [written] at among
    rcases Text.mem_of_mem_intercalate among with inSeparator | ⟨marked, isMarkedOne, inside⟩
    · exact absurd inSeparator (by decide)
    · obtain ⟨segment, isSegment, rfl⟩ := List.mem_map.mp isMarkedOne
      rw [← isMarked, mem_markParagraph_iff (by decide)] at inside
      exact return_not_mem_paragraphs isSegment inside.2
  · rw [written]
    refine pieces_intercalate ?_ ?_
    · rw [Ne, List.map_eq_nil_iff]
      exact paragraphsFrom_ne_nil [] _
    · rw [List.forall_mem_map]
      exact fun segment _ => noLineFeed segment

/-- A carriage return in front of another line end makes a run with it. -/
example : linebreaks "\r\r\na\n" = "<p></p>\n\n<p>a<br></p>" := by cbv

end Document
end TemplatedMarkup
