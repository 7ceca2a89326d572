import TemplatedMarkup.Proofs.Document.PlainText
import TemplatedMarkup.Proofs.Text.Search

/-!
# Open marks

A pass over a line reads characters and spans until it comes to a mark that no other mark closes.
From there on the line stays as it is, and what stands behind it decides whether a span goes on.
-/

namespace TemplatedMarkup
namespace Document

variable {style : SpanStyle} {text content after behind rest : List Char} {character next : Char}

/-- The text from the first mark on that no other mark closes. -/
def SpanStyle.openPart (style : SpanStyle) : List Char → List Char
  | [] => []
  | character :: rest =>
      if style.mark.isPrefixOf (character :: rest) then
        match _found : style.content? (rest.drop (style.mark.length - 1)) with
        | some (_, after) => style.openPart after
        | none => character :: rest
      else style.openPart rest
termination_by text => text.length
decreasing_by
  · have shorter := SpanStyle.length_content_le _found
    simp only [List.length_drop, List.length_cons] at shorter ⊢
    omega
  · simp

/-- Whether a text can stand between two marks. -/
def SpanStyle.Encloses (style : SpanStyle) (content : List Char) : Prop :=
  style.mayBeEmpty = true ∨ content ≠ []

/-- Two marks of a text enclose a content. -/
def SpanStyle.HasSpan (style : SpanStyle) (text : List Char) : Prop :=
  ∃ before content after, text = before ++ style.mark ++ content ++ style.mark ++ after ∧
    style.Encloses content

/-! ## Contents -/

section Content

/-- A line does not stop a search. -/
theorem beq_lineFeed_eq_false
    (oneLine : '\n' ∉ text) :
    ∀ character ∈ text, (character == '\n') = false :=
  fun _ among => beq_false_of_ne fun isEnd => oneLine (isEnd ▸ among)

/-- A content is what two marks enclose. -/
theorem SpanStyle.eq_append_of_content?
    (found : style.content? text = some (content, after)) :
    text = content ++ style.mark ++ after ∧ style.Encloses content := by
  rw [content?] at found
  split at found
  · rename_i mayBeEmpty
    exact ⟨Text.eq_append_of_cutAround? found, .inl mayBeEmpty⟩
  · cases text with
    | nil => contradiction
    | cons character text =>
        rw [upToLater?] at found
        split at found
        · contradiction
        · obtain ⟨⟨inner, behind⟩, searched, same⟩ := Option.map_eq_some_iff.mp found
          obtain ⟨rfl, rfl⟩ := Prod.mk.inj same
          exact ⟨congrArg _ (Text.eq_append_of_cutAround? searched), .inr (List.cons_ne_nil _ _)⟩

/-- On a line, what a mark closes is found. -/
theorem SpanStyle.content?_ne_none
    (marked : style.mark ≠ [])
    (oneLine : '\n' ∉ content ++ style.mark ++ after)
    (encloses : style.Encloses content) :
    style.content? (content ++ style.mark ++ after) ≠ none := by
  have searched (content : List Char) (oneLine : '\n' ∉ content ++ style.mark ++ after) :
      upTo? style.mark (content ++ style.mark ++ after) ≠ none := by
    rw [upTo?, ne_eq, Text.cutAround?_eq_none_iff marked (beq_lineFeed_eq_false oneLine), not_not]
    exact ⟨content, after, rfl⟩
  rw [content?]
  split
  · exact searched content oneLine
  · rename_i mayNotBeEmpty
    obtain ⟨character, others, rfl⟩ :=
      List.exists_cons_of_ne_nil (encloses.resolve_left mayNotBeEmpty)
    rw [List.cons_append, List.cons_append, List.mem_cons, not_or] at oneLine
    rw [List.cons_append, List.cons_append, upToLater?, if_neg (Ne.symm oneLine.1), ne_eq,
      Option.map_eq_none_iff]
    exact searched others oneLine.2

theorem SpanStyle.content?_append_of_eq_some
    (found : style.content? text = some (content, after))
    (rest : List Char) :
    style.content? (text ++ rest) = some (content, after ++ rest) := by
  rw [content?] at found ⊢
  split at found
  · rename_i mayBeEmpty
    rw [if_pos mayBeEmpty]
    exact Text.cutAround?_append_of_eq_some found rest
  · rename_i mayNotBeEmpty
    rw [if_neg mayNotBeEmpty]
    cases text with
    | nil => contradiction
    | cons character text =>
        rw [upToLater?] at found
        split at found
        · contradiction
        · rename_i notEnd
          obtain ⟨⟨inner, behind⟩, searched, same⟩ := Option.map_eq_some_iff.mp found
          obtain ⟨rfl, rfl⟩ := Prod.mk.inj same
          rw [List.cons_append, upToLater?, if_neg notEnd, upTo?,
            Text.cutAround?_append_of_eq_some searched]
          rfl

/-- A content that is not closed on a line is closed by the first mark behind it. -/
theorem SpanStyle.content?_append_of_eq_none
    (marked : style.mark ≠ [])
    (oneLine : '\n' ∉ text ++ [next])
    (apart : next ∉ style.mark)
    (notFound : style.content? text = none)
    (rest : List Char) :
    style.content? (text ++ next :: rest) =
      (upTo? style.mark rest).map fun (before, after) => (text ++ next :: before, after) := by
  rw [content?] at notFound ⊢
  split at notFound
  · rename_i mayBeEmpty
    rw [if_pos mayBeEmpty]
    exact Text.cutAround?_append_of_eq_none marked (beq_lineFeed_eq_false oneLine) apart notFound _
  · rename_i mayNotBeEmpty
    rw [if_neg mayNotBeEmpty]
    cases text with
    | nil =>
        have notEnd : next ≠ '\n' := by simpa [eq_comm] using oneLine
        rw [List.nil_append, upToLater?, if_neg notEnd]
        rfl
    | cons character text =>
        rw [List.cons_append, List.mem_cons, not_or] at oneLine
        rw [upToLater?, if_neg (Ne.symm oneLine.1), Option.map_eq_none_iff] at notFound
        rw [List.cons_append, upToLater?, if_neg (Ne.symm oneLine.1), upTo?,
          Text.cutAround?_append_of_eq_none marked (beq_lineFeed_eq_false oneLine.2) apart notFound,
          upTo?]
        cases Text.cutAround? (· == '\n') style.mark rest <;> rfl

end Content

/-! ## Reading -/

section Reading

/-- A text that starts with a mark is the mark and what both passes read behind it. -/
theorem SpanStyle.eq_mark_append
    (marked : style.mark ≠ [])
    (starts : style.mark.isPrefixOf (character :: rest) = true) :
    character :: rest = style.mark ++ rest.drop (style.mark.length - 1) := by
  obtain ⟨first, others, isMark⟩ := List.exists_cons_of_ne_nil marked
  obtain ⟨text, whole⟩ := List.isPrefixOf_iff_prefix.mp starts
  rw [isMark] at whole ⊢
  obtain ⟨rfl, rfl⟩ := List.cons.inj whole
  simp

theorem SpanStyle.exists_mark_append
    (marked : style.mark ≠ [])
    (text : List Char) :
    ∃ first rest, style.mark ++ text = first :: rest ∧
      style.mark.isPrefixOf (first :: rest) = true ∧
      rest.drop (style.mark.length - 1) = text := by
  obtain ⟨first, others, isMark⟩ := List.exists_cons_of_ne_nil marked
  have whole : style.mark ++ text = first :: (others ++ text) := by
    rw [isMark]
    rfl
  have starts : style.mark.isPrefixOf (first :: (others ++ text)) = true := by
    rw [List.isPrefixOf_iff_prefix, ← whole]
    exact List.prefix_append _ _
  refine ⟨first, others ++ text, whole, starts, ?_⟩
  rw [eq_mark_append marked starts] at whole
  exact (List.append_cancel_left whole).symm

theorem convertSpans_cons
    (startsNot : ¬style.mark <+: character :: rest) :
    convertSpans style (character :: rest) = character :: convertSpans style rest := by
  rw [convertSpans, if_neg (by rwa [List.isPrefixOf_iff_prefix])]

theorem convertSpans_mark
    (marked : style.mark ≠ [])
    (found : style.content? text = some (content, after)) :
    convertSpans style (style.mark ++ text) =
      element style.tag content ++ convertSpans style after := by
  obtain ⟨first, rest, whole, starts, isBehind⟩ := style.exists_mark_append marked text
  rw [whole, convertSpans, if_pos starts]
  split <;> simp_all

theorem SpanStyle.openPart_cons
    (startsNot : ¬style.mark <+: character :: rest) :
    style.openPart (character :: rest) = style.openPart rest := by
  rw [openPart, if_neg (by rwa [List.isPrefixOf_iff_prefix])]

theorem SpanStyle.openPart_mark
    (marked : style.mark ≠ [])
    (found : style.content? text = some (content, after)) :
    style.openPart (style.mark ++ text) = style.openPart after := by
  obtain ⟨first, rest, whole, starts, isBehind⟩ := style.exists_mark_append marked text
  rw [whole, openPart, if_pos starts]
  split <;> simp_all

theorem SpanStyle.openPart_mark_of_eq_none
    (marked : style.mark ≠ [])
    (notFound : style.content? text = none) :
    style.openPart (style.mark ++ text) = style.mark ++ text := by
  obtain ⟨first, rest, whole, starts, isBehind⟩ := style.exists_mark_append marked text
  rw [whole, openPart, if_pos starts]
  split <;> simp_all

/-- A text is read character by character and span by span, up to an open mark. -/
@[elab_as_elim]
theorem SpanStyle.reading
    {motive : List Char → Prop}
    (marked : style.mark ≠ [])
    (nil : motive [])
    (plain : ∀ character rest, ¬style.mark <+: character :: rest → motive rest →
      motive (character :: rest))
    (span : ∀ text content after, style.content? text = some (content, after) → motive after →
      motive (style.mark ++ text))
    (opened : ∀ text, style.content? text = none → motive (style.mark ++ text))
    (text : List Char) :
    motive text := by
  induction text using openPart.induct style with
  | case1 => exact nil
  | case2 character rest starts content after found inductionHypothesis =>
      rw [eq_mark_append marked starts]
      exact span _ content after found inductionHypothesis
  | case3 character rest starts notFound =>
      rw [eq_mark_append marked starts]
      exact opened _ notFound
  | case4 character rest startsNot inductionHypothesis =>
      exact plain character rest (by rwa [List.isPrefixOf_iff_prefix] at startsNot)
        inductionHypothesis

end Reading

/-! ## A line without spans -/

section HasSpan

/-- A pass leaves a line without spans as it is. -/
theorem convertSpans_eq_self_of_not_hasSpan
    (marked : style.mark ≠ [])
    (notHas : ¬style.HasSpan text) :
    convertSpans style text = text := by
  induction text with
  | nil => rw [convertSpans]
  | cons character rest inductionHypothesis =>
      have behind : convertSpans style rest = rest := by
        refine inductionHypothesis ?_
        rintro ⟨before, content, after, rfl, encloses⟩
        exact notHas ⟨character :: before, content, after, rfl, encloses⟩
      rw [convertSpans]
      split
      · rename_i starts
        split
        · rename_i content after found
          obtain ⟨isBehind, encloses⟩ := SpanStyle.eq_append_of_content? found
          have isSpan := SpanStyle.eq_mark_append marked starts
          rw [isBehind] at isSpan
          exact absurd ⟨[], content, after, by simpa using isSpan, encloses⟩ notHas
        · rw [behind]
      · rw [behind]

/-- Behind an open mark, a line has no span. -/
theorem SpanStyle.not_hasSpan_mark
    (marked : style.mark ≠ [])
    (oneLine : '\n' ∉ text)
    (notFound : style.content? text = none) :
    ¬style.HasSpan (style.mark ++ text) := by
  rintro ⟨before, content, after, same, encloses⟩
  have fits : style.mark.length ≤ (before ++ style.mark ++ content).length := by
    simp only [List.length_append]
    omega
  have isText : text = (before ++ style.mark ++ content).drop style.mark.length ++
      style.mark ++ after := by
    have dropped := congrArg (List.drop style.mark.length) same
    rwa [List.drop_left, List.append_assoc _ style.mark after, List.drop_append_of_le_length fits,
      ← List.append_assoc] at dropped
  have enclosesLonger :
      style.Encloses ((before ++ style.mark ++ content).drop style.mark.length) := by
    refine encloses.imp_right fun nonempty => List.ne_nil_of_length_pos ?_
    have positive := List.length_pos_of_ne_nil nonempty
    simp only [List.length_drop, List.length_append]
    omega
  rw [isText] at oneLine notFound
  exact content?_ne_none marked oneLine enclosesLonger notFound

end HasSpan

/-! ## A line and what stands behind it -/

section Behind

/-- The open part is the rest of a text from an open mark on. -/
theorem SpanStyle.openPart_eq_mark_append
    (marked : style.mark ≠ [])
    (isOpen : style.openPart text ≠ []) :
    ∃ behind, style.openPart text = style.mark ++ behind ∧ style.content? behind = none ∧
      style.openPart text <:+ text := by
  induction text using style.reading marked with
  | nil => exact absurd (by rw [openPart]) isOpen
  | plain character rest startsNot inductionHypothesis =>
      rw [openPart_cons startsNot] at isOpen ⊢
      obtain ⟨behind, same, notFound, ends⟩ := inductionHypothesis isOpen
      exact ⟨behind, same, notFound, ends.trans (List.suffix_cons _ _)⟩
  | span text content after found inductionHypothesis =>
      rw [openPart_mark marked found] at isOpen ⊢
      obtain ⟨behind, same, notFound, ends⟩ := inductionHypothesis isOpen
      refine ⟨behind, same, notFound, ends.trans ?_⟩
      rw [(eq_append_of_content? found).1]
      exact (List.suffix_append _ _).trans (List.suffix_append _ _)
  | opened text notFound =>
      rw [openPart_mark_of_eq_none marked notFound]
      exact ⟨text, rfl, notFound, List.suffix_rfl⟩

/-- A pass reads a text the same way whatever stands behind it, up to an open mark. -/
theorem exists_convertSpans_append
    (marked : style.mark ≠ [])
    (text : List Char) :
    ∃ converted, ∀ rest, (∀ next ∈ rest.head?, next ∉ style.mark) →
      convertSpans style (text ++ rest) =
        converted ++ convertSpans style (style.openPart text ++ rest) := by
  induction text using style.reading marked with
  | nil => exact ⟨[], fun rest _ => by rw [SpanStyle.openPart]; rfl⟩
  | plain character text startsNot inductionHypothesis =>
      obtain ⟨converted, onward⟩ := inductionHypothesis
      refine ⟨character :: converted, fun rest apart => ?_⟩
      have startsNotLonger : ¬style.mark <+: character :: (text ++ rest) := by
        cases rest with
        | nil => rwa [List.append_nil]
        | cons next rest =>
            intro starts
            exact startsNot (Text.prefix_of_prefix_append_cons (apart next rfl) starts)
      rw [List.cons_append, convertSpans_cons startsNotLonger, onward rest apart,
        SpanStyle.openPart_cons startsNot]
      rfl
  | span text content after found inductionHypothesis =>
      obtain ⟨converted, onward⟩ := inductionHypothesis
      refine ⟨element style.tag content ++ converted, fun rest apart => ?_⟩
      have foundLonger := SpanStyle.content?_append_of_eq_some found rest
      rw [List.append_assoc, convertSpans_mark marked foundLonger, onward rest apart,
        SpanStyle.openPart_mark marked found, List.append_assoc]
  | opened text notFound =>
      exact ⟨[], fun rest _ => by rw [SpanStyle.openPart_mark_of_eq_none marked notFound]; rfl⟩

/-- Behind a text without an open mark, a pass starts anew. -/
theorem convertSpans_append_of_closed
    (marked : style.mark ≠ [])
    (closed : style.openPart text = [])
    (apart : ∀ next ∈ rest.head?, next ∉ style.mark) :
    convertSpans style (text ++ rest) = convertSpans style text ++ convertSpans style rest := by
  obtain ⟨converted, onward⟩ := exists_convertSpans_append marked text
  have alone := onward [] nofun
  rw [closed, List.append_nil, List.append_nil, convertSpans, List.append_nil] at alone
  rw [onward rest apart, alone, closed]
  rfl

/-- A pass over a line comes to its open mark, and to what stands behind the line. -/
theorem exists_convertSpans_append_of_open
    (marked : style.mark ≠ [])
    (oneLine : '\n' ∉ text)
    (isOpen : style.openPart text ≠ []) :
    ∃ converted behind, '\n' ∉ behind ∧ style.content? behind = none ∧
      convertSpans style text = converted ++ style.mark ++ behind ∧
      ∀ next rest, next ∉ style.mark →
        convertSpans style (text ++ next :: rest) =
          converted ++ convertSpans style (style.mark ++ (behind ++ next :: rest)) := by
  obtain ⟨converted, onward⟩ := exists_convertSpans_append marked text
  obtain ⟨behind, same, notFound, ends⟩ := SpanStyle.openPart_eq_mark_append marked isOpen
  have behindLine : '\n' ∉ behind := fun among => oneLine (ends.subset (by simp [same, among]))
  have nothing := convertSpans_eq_self_of_not_hasSpan marked
    (SpanStyle.not_hasSpan_mark marked behindLine notFound)
  refine ⟨converted, behind, behindLine, notFound, ?_, fun next rest apart => ?_⟩
  · have alone := onward [] nofun
    rwa [List.append_nil, List.append_nil, same, nothing, ← List.append_assoc] at alone
  · rw [onward (next :: rest) (by simpa using apart), same, List.append_assoc]

/-- The mark that a line leaves open is closed by the first mark behind it. -/
theorem convertSpans_append_of_closing
    {before : List Char}
    (marked : style.mark ≠ [])
    (oneLine : '\n' ∉ text ++ [next])
    (isOpen : style.openPart text ≠ [])
    (apart : next ∉ style.mark)
    (closing : upTo? style.mark rest = some (before, after)) :
    ∃ converted behind, convertSpans style text = converted ++ style.mark ++ behind ∧
      convertSpans style (text ++ next :: rest) =
        converted ++ element style.tag (behind ++ next :: before) ++ convertSpans style after := by
  rw [List.mem_append, not_or] at oneLine
  obtain ⟨converted, behind, behindLine, notFound, alone, onward⟩ :=
    exists_convertSpans_append_of_open marked oneLine.1 isOpen
  have found :
      style.content? (behind ++ next :: rest) = some (behind ++ next :: before, after) := by
    rw [SpanStyle.content?_append_of_eq_none marked (by simpa [behindLine] using oneLine.2) apart
      notFound, closing]
    rfl
  refine ⟨converted, behind, alone, ?_⟩
  rw [onward next rest apart, convertSpans_mark marked found, List.append_assoc]

/-- What stands behind a line stays as it is when it has no mark. -/
theorem convertSpans_append_of_not_infix
    (marked : style.mark ≠ [])
    (oneLine : '\n' ∉ text ++ next :: rest)
    (apart : next ∉ style.mark)
    (noMark : ¬style.mark <:+: next :: rest) :
    convertSpans style (text ++ next :: rest) = convertSpans style text ++ next :: rest := by
  rw [List.mem_append, List.mem_cons, not_or, not_or] at oneLine
  by_cases closed : style.openPart text = []
  · have nothing : ¬style.HasSpan (next :: rest) := by
      rintro ⟨before, content, after, same, -⟩
      exact noMark ⟨before, content ++ style.mark ++ after, by simp [same]⟩
    rw [convertSpans_append_of_closed marked closed (by simpa using apart),
      convertSpans_eq_self_of_not_hasSpan marked nothing]
  · obtain ⟨converted, behind, behindLine, notFound, alone, onward⟩ :=
      exists_convertSpans_append_of_open marked oneLine.1 closed
    have wholeLine : '\n' ∉ behind ++ next :: rest := by
      simp [behindLine, oneLine.2]
    have notFoundLonger : style.content? (behind ++ next :: rest) = none := by
      rw [SpanStyle.content?_append_of_eq_none marked (by simp [behindLine, oneLine.2.1]) apart
        notFound, Option.map_eq_none_iff, upTo?, Text.cutAround?_eq_none_iff marked
        (beq_lineFeed_eq_false oneLine.2.2)]
      exact fun inside => noMark (inside.trans (List.suffix_cons _ _).isInfix)
    rw [onward next rest apart, alone, convertSpans_eq_self_of_not_hasSpan marked
      (SpanStyle.not_hasSpan_mark marked wholeLine notFoundLonger)]
    simp

end Behind

end Document
end TemplatedMarkup
