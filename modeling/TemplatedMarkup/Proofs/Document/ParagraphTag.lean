import TemplatedMarkup.Proofs.Document.Paragraph
import TemplatedMarkup.Proofs.Text.Html
import TemplatedMarkup.Proofs.Text.Occurrence

/-!
# Tags of paragraphs

Paragraphs put three tags into a text.  When these are taken out again, in any order, the text is
left but for its line ends.  No entity holds a line end, so the paragraphs of an escaped text are the
escaped paragraphs of the text.
-/

namespace TemplatedMarkup
namespace Document

open Text (replace escape escapeCharacter)

/-! ## Marked up texts -/

/-- The tags that paragraphs put into a text. -/
def paragraphTags : List (List Char) := ["<p>".toList, "</p>".toList, "<br>".toList]

/-- A text with every occurrence of some tags taken out, one tag after the other. -/
def withoutTags (tags : List (List Char)) (text : List Char) : List Char :=
  tags.foldl (fun text tag => replace tag [] text) text

/-- A text consists of tags and of the characters of another text, among which no tag opens. -/
inductive MarksUp (tags : List (List Char)) : List Char → List Char → Prop
  | nothing : MarksUp tags [] []
  | tag {tag marked plain : List Char} :
      tag ∈ tags → MarksUp tags marked plain → MarksUp tags (tag ++ marked) plain
  | character {character : Char} {marked plain : List Char} :
      character ≠ '<' → MarksUp tags marked plain →
        MarksUp tags (character :: marked) (character :: plain)

section MarksUp

variable
  {tags : List (List Char)}
  {tag other marked plain : List Char}

theorem MarksUp.append
    {markedBehind plainBehind : List Char}
    (marksUp : MarksUp tags marked plain)
    (behind : MarksUp tags markedBehind plainBehind) :
    MarksUp tags (marked ++ markedBehind) (plain ++ plainBehind) := by
  induction marksUp with
  | nothing => exact behind
  | tag isTag _ inductionHypothesis =>
      rw [List.append_assoc]
      exact .tag isTag inductionHypothesis
  | character noTag _ inductionHypothesis => exact .character noTag inductionHypothesis

/-- A text in which no tag opens is marked up without tags. -/
theorem marksUp_of_not_mem {text : List Char} (absent : '<' ∉ text) : MarksUp tags text text := by
  induction text with
  | nil => exact .nothing
  | cons character text inductionHypothesis =>
      rw [List.mem_cons, not_or] at absent
      exact .character (Ne.symm absent.1) (inductionHypothesis absent.2)

theorem marksUp_of_mem (isTag : tag ∈ tags) : MarksUp tags tag [] := by
  simpa using MarksUp.tag isTag .nothing

/-- More tags may be used. -/
theorem MarksUp.mono
    {others : List (List Char)}
    (includes : tags ⊆ others)
    (marksUp : MarksUp tags marked plain) :
    MarksUp others marked plain := by
  induction marksUp with
  | nothing => exact .nothing
  | tag isTag _ inductionHypothesis => exact .tag (includes isTag) inductionHypothesis
  | character noTag _ inductionHypothesis => exact .character noTag inductionHypothesis

/-- A tag of paragraphs opens with its first character and nowhere else. -/
theorem exists_eq_cons_of_mem_paragraphTags
    (isTag : tag ∈ paragraphTags) :
    ∃ inside, tag = '<' :: inside ∧ '<' ∉ inside := by
  simp only [paragraphTags, List.mem_cons, List.not_mem_nil, or_false] at isTag
  rcases isTag with rfl | rfl | rfl
  all_goals exact ⟨_, rfl, by decide⟩

/-- Taking one tag of paragraphs out leaves the others as they are. -/
theorem replace_tag_append
    (isTag : tag ∈ paragraphTags)
    (isOther : other ∈ paragraphTags)
    (apart : tag ≠ other)
    (rest : List Char) :
    replace tag [] (other ++ rest) = other ++ replace tag [] rest := by
  -- Neither tag starts with the other, so the tag is not found where the other one is.
  have startsNot : ¬tag <+: other ++ rest := by
    intro starts
    have noneStarts : ∀ tag ∈ paragraphTags, ∀ other ∈ paragraphTags, tag <+: other →
        tag = other := by
      decide
    rcases List.prefix_or_prefix_of_prefix starts (List.prefix_append other rest) with
      inOther | inTag
    · exact apart (noneStarts tag isTag other isOther inOther)
    · exact apart (noneStarts other isOther tag isTag inTag).symm
  obtain ⟨inside, rfl, -⟩ := exists_eq_cons_of_mem_paragraphTags isTag
  obtain ⟨otherInside, rfl, noTag⟩ := exists_eq_cons_of_mem_paragraphTags isOther
  rw [List.cons_append] at startsNot ⊢
  rw [Text.replace_cons startsNot, Text.replace_append_of_not_mem noTag, List.cons_append]

/-- Taking a tag out of a marked up text leaves a text that is marked up with the other tags. -/
theorem MarksUp.replace
    (areTags : tag :: tags ⊆ paragraphTags)
    (marksUp : MarksUp (tag :: tags) marked plain) :
    MarksUp tags (replace tag [] marked) plain := by
  have isTag := areTags List.mem_cons_self
  obtain ⟨inside, isWritten, -⟩ := exists_eq_cons_of_mem_paragraphTags isTag
  have nonempty : tag ≠ [] := by simp [isWritten]
  induction marksUp with
  | nothing =>
      rw [Text.replace_nil nonempty]
      exact .nothing
  | @tag next marked plain isNext _ inductionHypothesis =>
      by_cases same : tag = next
      · rw [← same, Text.replace_append nonempty]
        exact inductionHypothesis
      · rw [replace_tag_append isTag (areTags isNext) same]
        exact .tag ((List.mem_cons.mp isNext).resolve_left (Ne.symm same)) inductionHypothesis
  | @character character marked plain noTag _ inductionHypothesis =>
      have startsNot : ¬tag <+: character :: marked := by
        rw [isWritten, List.cons_prefix_cons]
        exact fun starts => noTag starts.1.symm
      rw [Text.replace_cons startsNot]
      exact .character noTag inductionHypothesis

/-- What is left without the tags is the text that was marked up. -/
theorem MarksUp.withoutTags_eq
    (areTags : tags ⊆ paragraphTags)
    (marksUp : MarksUp tags marked plain) :
    withoutTags tags marked = plain := by
  induction tags generalizing marked with
  | nil =>
      rw [withoutTags, List.foldl_nil]
      induction marksUp with
      | nothing => rfl
      | tag isTag => contradiction
      | character _ _ inductionHypothesis => exact congrArg _ inductionHypothesis
  | cons tag tags inductionHypothesis =>
      rw [withoutTags, List.foldl_cons]
      exact inductionHypothesis (List.subset_of_cons_subset areTags) (marksUp.replace areTags)

end MarksUp

/-! ## Paragraphs as marked up texts -/

/-- What stands between the tags of the paragraphs of a text: the paragraphs without their line
feeds, with a blank line between them. -/
def unmarked (text : List Char) : List Char :=
  "\n\n".toList.intercalate
    ((paragraphs text).map fun paragraph => paragraph.filter (· ≠ '\n'))

section Paragraphs

variable {text : List Char}

/-- A text with its line feeds as tags is its other characters with tags. -/
theorem marksUp_breakLines
    (absent : '<' ∉ text) :
    MarksUp paragraphTags (breakLines text) (text.filter (· ≠ '\n')) := by
  induction text with
  | nil => exact .nothing
  | cons character text inductionHypothesis =>
      rw [List.mem_cons, not_or] at absent
      have behind := inductionHypothesis absent.2
      rw [breakLines, List.flatMap_cons]
      by_cases isLineFeed : character = '\n'
      · rw [if_pos isLineFeed, List.filter_cons_of_neg (by simpa using isLineFeed)]
        exact .tag (by decide) behind
      · rw [if_neg isLineFeed, List.filter_cons_of_pos (by simpa using isLineFeed)]
        exact .character (Ne.symm absent.1) behind

theorem marksUp_markParagraph
    (absent : '<' ∉ text) :
    MarksUp paragraphTags (markParagraph text) (text.filter (· ≠ '\n')) := by
  have isTag : "</p>".toList ∈ paragraphTags := by decide
  have closed := (marksUp_breakLines absent).append (marksUp_of_mem isTag)
  rw [List.append_nil] at closed
  rw [markParagraph, List.append_assoc]
  exact .tag (by decide) closed

/-- Marked paragraphs with blank lines between them are the paragraphs with tags. -/
theorem marksUp_intercalate_markParagraph
    {paragraphs : List (List Char)}
    (absent : ∀ paragraph ∈ paragraphs, '<' ∉ paragraph) :
    MarksUp paragraphTags
      ("\n\n".toList.intercalate (paragraphs.map markParagraph))
      ("\n\n".toList.intercalate
        (paragraphs.map fun paragraph => paragraph.filter (· ≠ '\n'))) := by
  induction paragraphs with
  | nil => exact .nothing
  | cons paragraph others inductionHypothesis =>
      rw [List.forall_mem_cons] at absent
      have first := marksUp_markParagraph absent.1
      have behind := inductionHypothesis absent.2
      cases others with
      | nil => simpa using first
      | cons next others =>
          simp only [List.map_cons, List.intercalate_cons_cons] at behind ⊢
          exact (first.append (marksUp_of_not_mem (by decide))).append behind

/-- The paragraphs of a text in which no tag opens are the text between them with tags. -/
theorem marksUp_linebreaks
    {text : String}
    (absent : '<' ∉ text.toList) :
    MarksUp paragraphTags (linebreaks text).toList (unmarked text.toList) := by
  rw [linebreaks, String.toList_ofList]
  refine marksUp_intercalate_markParagraph fun paragraph among opens => ?_
  have isPart := infix_of_mem_paragraphsFrom among
  rw [List.reverse_nil, List.nil_append] at isPart
  rcases mem_of_mem_normalizeLineEnds (isPart.subset opens) with isLineFeed | inText
  · exact absurd isLineFeed (by decide)
  · exact absent inText

end Paragraphs

/-! ## Line ends -/

/-- The characters that end a line. -/
def lineEnds : List Char := ['\n', '\r']

/-- A text without its line ends. -/
def withoutLineEnds (text : List Char) : List Char :=
  text.filter (· ∉ lineEnds)

/-! ## Escaped line ends -/

section Escaped

variable {character lineEnd : Char} {front text rest : List Char}

theorem mem_lineEnds : character ∈ lineEnds ↔ character = '\n' ∨ character = '\r' := by
  simp [lineEnds]

/-- The only line end in the text of a character is the character. -/
theorem not_mem_escapeCharacter
    (isLineEnd : lineEnd ∈ lineEnds)
    (apart : character ≠ lineEnd) :
    lineEnd ∉ escapeCharacter character := by
  rcases mem_lineEnds.mp isLineEnd with rfl | rfl
  all_goals
    unfold escapeCharacter
    split
    case h_6 => simpa using Ne.symm apart
    all_goals decide

theorem escapeCharacter_of_mem_lineEnds
    (isLineEnd : lineEnd ∈ lineEnds) :
    escapeCharacter lineEnd = [lineEnd] := by
  rcases mem_lineEnds.mp isLineEnd with rfl | rfl
  all_goals rfl

theorem escapeCharacter_ne_nil (character : Char) : escapeCharacter character ≠ [] := by
  unfold escapeCharacter
  split
  all_goals exact List.cons_ne_nil _ _

/-- An escaped text starts with a line end exactly when the text does. -/
theorem head?_escape_eq_some_iff
    (isLineEnd : lineEnd ∈ lineEnds) :
    (escape text).head? = some lineEnd ↔ text.head? = some lineEnd := by
  cases text with
  | nil => rfl
  | cons character text =>
      obtain ⟨first, others, isWritten⟩ :=
        List.exists_cons_of_ne_nil (escapeCharacter_ne_nil character)
      rw [escape, List.flatMap_cons, isWritten, List.cons_append, List.head?_cons, List.head?_cons,
        Option.some_inj, Option.some_inj]
      constructor
      · rintro rfl
        by_contra apart
        exact not_mem_escapeCharacter isLineEnd apart (by simp [isWritten])
      · rintro rfl
        rw [escapeCharacter_of_mem_lineEnds isLineEnd] at isWritten
        exact (List.cons.inj isWritten).1.symm

/-! ## Line ends written anew -/

theorem normalizeLineEnds_cons
    (noReturn : character ≠ '\r')
    (rest : List Char) :
    normalizeLineEnds (character :: rest) = character :: normalizeLineEnds rest := by
  rw [normalizeLineEnds]
  · exact fun _ isReturn => absurd isReturn noReturn
  · exact noReturn

/-- A carriage return without a line feed behind it is a line end of its own. -/
theorem normalizeLineEnds_return_cons
    (noLineFeed : rest.head? ≠ some '\n') :
    normalizeLineEnds ('\r' :: rest) = '\n' :: normalizeLineEnds rest := by
  rw [normalizeLineEnds]
  rintro behind rfl
  exact noLineFeed rfl

theorem normalizeLineEnds_append
    (noReturn : '\r' ∉ front)
    (rest : List Char) :
    normalizeLineEnds (front ++ rest) = front ++ normalizeLineEnds rest := by
  induction front with
  | nil => rfl
  | cons character front inductionHypothesis =>
      rw [List.mem_cons, not_or] at noReturn
      rw [List.cons_append, normalizeLineEnds_cons (Ne.symm noReturn.1),
        inductionHypothesis noReturn.2, List.cons_append]

/-- Line ends are written anew in an escaped text as in the text. -/
theorem normalizeLineEnds_escape (text : List Char) :
    normalizeLineEnds (escape text) = escape (normalizeLineEnds text) := by
  fun_induction normalizeLineEnds text with
  | case1 rest inductionHypothesis =>
      calc
        normalizeLineEnds (escape ('\r' :: '\n' :: rest))
            = '\n' :: normalizeLineEnds (escape rest) := rfl
        _ = '\n' :: escape (normalizeLineEnds rest) := by rw [inductionHypothesis]
  | case2 rest noLineFeed inductionHypothesis =>
      have alone : (escape rest).head? ≠ some '\n' := by
        rw [Ne, head?_escape_eq_some_iff (by decide), List.head?_eq_some_iff]
        rintro ⟨behind, startsWith⟩
        exact noLineFeed behind startsWith
      calc
        normalizeLineEnds (escape ('\r' :: rest))
            = '\n' :: normalizeLineEnds (escape rest) := normalizeLineEnds_return_cons alone
        _ = '\n' :: escape (normalizeLineEnds rest) := by rw [inductionHypothesis]
  | case3 character rest notBoth noReturn inductionHypothesis =>
      have absent : '\r' ∉ escapeCharacter character :=
        not_mem_escapeCharacter (by decide) noReturn
      rw [escape, List.flatMap_cons, normalizeLineEnds_append absent]
      exact congrArg (escapeCharacter character ++ ·) inductionHypothesis
  | case4 => rfl

/-! ## Cut paragraphs -/

theorem dropWhile_escape (text : List Char) :
    (escape text).dropWhile (· == '\n') = escape (text.dropWhile (· == '\n')) := by
  induction text with
  | nil => rfl
  | cons character text inductionHypothesis =>
      by_cases isLineFeed : character = '\n'
      · rw [isLineFeed]
        exact inductionHypothesis
      · rw [List.dropWhile_cons_of_neg (by simpa using isLineFeed)]
        have noLineFeed : (escape (character :: text)).head? ≠ some '\n' := by
          rw [Ne, head?_escape_eq_some_iff (by decide)]
          simpa using isLineFeed
        cases isWritten : escape (character :: text) with
        | nil => rfl
        | cons first others =>
            rw [isWritten] at noLineFeed
            exact List.dropWhile_cons_of_neg (by simpa using noLineFeed)

/-- The paragraphs of an escaped text are the escaped paragraphs of the text. -/
theorem paragraphsFrom_escape (piece text : List Char) :
    paragraphsFrom (escape piece.reverse).reverse (escape text) =
      (paragraphsFrom piece text).map escape := by
  fun_induction paragraphsFrom piece text with
  | case1 piece =>
      calc
        paragraphsFrom (escape piece.reverse).reverse (escape [])
            = [(escape piece.reverse).reverse.reverse] := paragraphsFrom.eq_1 _
        _ = [escape piece.reverse] := by rw [List.reverse_reverse]
  | case2 piece rest inductionHypothesis =>
      calc
        paragraphsFrom (escape piece.reverse).reverse (escape ('\n' :: '\n' :: rest))
            = (escape piece.reverse).reverse.reverse ::
                paragraphsFrom [] ((escape rest).dropWhile (· == '\n')) :=
              paragraphsFrom.eq_2 _ _
        _ = escape piece.reverse ::
              (paragraphsFrom [] (rest.dropWhile (· == '\n'))).map escape := by
              rw [List.reverse_reverse, dropWhile_escape]
              exact congrArg _ inductionHypothesis
  | case3 piece character rest uncut inductionHypothesis =>
      -- A single line feed does not cut, and the text of any other character holds none.
      have continues : paragraphsFrom (escape piece.reverse).reverse (escape (character :: rest)) =
          paragraphsFrom ((escapeCharacter character).reverse ++ (escape piece.reverse).reverse)
            (escape rest) := by
        by_cases isLineFeed : character = '\n'
        · rw [isLineFeed]
          refine paragraphsFrom_cons (fun cut => ?_) _
          have startsWith : rest.head? = some '\n' :=
            (head?_escape_eq_some_iff (by decide)).mp cut.2
          obtain ⟨behind, isBehind⟩ := List.head?_eq_some_iff.mp startsWith
          exact uncut behind isLineFeed isBehind
        · have absent := not_mem_escapeCharacter (by decide) isLineFeed
          refine paragraphsFrom_append (fun inside => absent (inside.subset (by simp))) (.inl ?_) _
          exact fun isLast => absent (List.mem_of_getLast? isLast)
      have isPiece : (escapeCharacter character).reverse ++ (escape piece.reverse).reverse =
          (escape (character :: piece).reverse).reverse := by
        have alone : escape [character] = escapeCharacter character := List.flatMap_singleton ..
        rw [← List.reverse_append, List.reverse_cons, Text.escape_append, alone]
      rw [continues, isPiece, inductionHypothesis]

theorem filter_escape (text : List Char) :
    (escape text).filter (· ≠ '\n') = escape (text.filter (· ≠ '\n')) := by
  induction text with
  | nil => rfl
  | cons character text inductionHypothesis =>
      rw [escape, List.flatMap_cons, List.filter_append]
      by_cases isLineFeed : character = '\n'
      · rw [isLineFeed]
        exact inductionHypothesis
      · rw [List.filter_cons_of_pos (by simpa using isLineFeed), List.filter_eq_self.mpr]
        · exact congrArg _ inductionHypothesis
        · intro written among
          have noLineFeed := not_mem_escapeCharacter (by decide) isLineFeed
          exact decide_eq_true fun isWritten => noLineFeed (isWritten ▸ among)

/-- Escaped texts with a blank line between them are the escape of the texts with one. -/
theorem intercalate_escape (parts : List (List Char)) :
    "\n\n".toList.intercalate (parts.map escape) = escape ("\n\n".toList.intercalate parts) := by
  induction parts with
  | nil => rfl
  | cons part parts inductionHypothesis =>
      cases parts with
      | nil => simp
      | cons next parts =>
          rw [List.map_cons] at inductionHypothesis
          rw [List.map_cons, List.map_cons, List.intercalate_cons_cons, inductionHypothesis,
            List.intercalate_cons_cons, Text.escape_append, Text.escape_append]
          rfl

/-- Between the tags of the paragraphs of an escaped text stands an escaped text. -/
theorem unmarked_escape (text : List Char) : unmarked (escape text) = escape (unmarked text) := by
  have cut : paragraphs (escape text) = (paragraphs text).map escape := by
    rw [paragraphs, normalizeLineEnds_escape]
    exact paragraphsFrom_escape [] (normalizeLineEnds text)
  rw [unmarked, unmarked, ← intercalate_escape, cut, List.map_map, List.map_map]
  congr 1
  exact List.map_congr_left fun paragraph _ => filter_escape paragraph

end Escaped

/-! ## Texts up to line ends -/

theorem withoutLineEnds_append (front rest : List Char) :
    withoutLineEnds (front ++ rest) = withoutLineEnds front ++ withoutLineEnds rest :=
  List.filter_append ..

/-- Joining texts with line ends between them puts line ends in only. -/
theorem withoutLineEnds_intercalate (parts : List (List Char)) :
    withoutLineEnds ("\n\n".toList.intercalate parts) = parts.flatMap withoutLineEnds := by
  have isNothing : withoutLineEnds "\n\n".toList = [] := rfl
  induction parts with
  | nil => rfl
  | cons part parts inductionHypothesis =>
      cases parts with
      | nil => simp
      | cons next parts =>
          rw [List.intercalate_cons_cons, withoutLineEnds_append, withoutLineEnds_append,
            isNothing, List.append_nil, inductionHypothesis]
          rfl

theorem withoutLineEnds_normalizeLineEnds (text : List Char) :
    withoutLineEnds (normalizeLineEnds text) = withoutLineEnds text := by
  fun_induction normalizeLineEnds text with
  | case1 rest inductionHypothesis => exact inductionHypothesis
  | case2 rest _ inductionHypothesis => exact inductionHypothesis
  | case3 character rest _ _ inductionHypothesis =>
      rw [← List.singleton_append, withoutLineEnds_append, inductionHypothesis,
        ← withoutLineEnds_append, List.singleton_append]
  | case4 => rfl

theorem withoutLineEnds_dropWhile (text : List Char) :
    withoutLineEnds (text.dropWhile (· == '\n')) = withoutLineEnds text := by
  induction text with
  | nil => rfl
  | cons character text inductionHypothesis =>
      by_cases isLineFeed : character = '\n'
      · rw [isLineFeed]
        exact inductionHypothesis
      · rw [List.dropWhile_cons_of_neg (by simpa using isLineFeed)]

theorem withoutLineEnds_filter (text : List Char) :
    withoutLineEnds (text.filter (· ≠ '\n')) = withoutLineEnds text := by
  rw [withoutLineEnds, List.filter_filter]
  refine List.filter_congr fun character _ => ?_
  simp only [mem_lineEnds]
  grind

/-- Cutting a text into paragraphs takes line ends out only. -/
theorem flatMap_withoutLineEnds_paragraphsFrom (piece text : List Char) :
    (paragraphsFrom piece text).flatMap withoutLineEnds =
      withoutLineEnds (piece.reverse ++ text) := by
  fun_induction paragraphsFrom piece text with
  | case1 piece => simp
  | case2 piece rest inductionHypothesis =>
      rw [List.flatMap_cons, inductionHypothesis, List.reverse_nil, List.nil_append,
        withoutLineEnds_dropWhile, withoutLineEnds_append]
      rfl
  | case3 piece character rest _ inductionHypothesis =>
      simpa using inductionHypothesis

/-- What stands between the tags of paragraphs is the text up to line ends. -/
theorem withoutLineEnds_unmarked (text : List Char) :
    withoutLineEnds (unmarked text) = withoutLineEnds text := by
  rw [unmarked, withoutLineEnds_intercalate, List.flatMap_map]
  calc
    (paragraphs text).flatMap (fun paragraph => withoutLineEnds (paragraph.filter (· ≠ '\n')))
        = (paragraphs text).flatMap withoutLineEnds := by
          simp only [withoutLineEnds_filter]
    _ = withoutLineEnds (normalizeLineEnds text) := flatMap_withoutLineEnds_paragraphsFrom [] _
    _ = withoutLineEnds text := withoutLineEnds_normalizeLineEnds text

end Document
end TemplatedMarkup
