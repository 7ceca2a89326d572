import Mathlib.Algebra.Group.Nat.Even
import TemplatedMarkup.Proofs.Document.LinkTarget

/-!
# Targets taken as they are written

Whether the passes spare the target of a link shows in its text: in the number of its stars and of
those of its label, and in where their underscores stand.  Bold takes stars away in fours, so it
does not change whether italic leaves one open.  The tags that take the place of stars stand between
the same underscores as the stars did.
-/

namespace TemplatedMarkup
namespace Document

variable {text label target content after : List Char}

/-! ## Stars -/

section Stars

theorem star_infix_iff : Emphasis.italic.style.mark <:+: text ↔ text.count '*' ≠ 0 := by
  change ['*'] <:+: text ↔ _
  rw [List.singleton_infix_iff, ← List.count_pos_iff, Nat.pos_iff_ne_zero]

/-- Two stars make an italic span. -/
theorem hasSpan_italic_iff : Emphasis.italic.style.HasSpan text ↔ 2 ≤ text.count '*' := by
  constructor
  · rintro ⟨before, content, after, rfl, -⟩
    have inMark : Emphasis.italic.style.mark.count '*' = 1 := rfl
    simp only [List.count_append, inMark]
    omega
  · intro several
    obtain ⟨before, rest, rfl, absent⟩ :=
      List.eq_append_cons_of_mem (List.count_pos_iff.mp (by omega : 0 < text.count '*'))
    have another : '*' ∈ rest := by
      rw [List.count_append, List.count_eq_zero_of_not_mem absent, List.count_cons_self] at several
      exact List.count_pos_iff.mp (by omega)
    obtain ⟨content, after, rfl⟩ := List.append_of_mem another
    exact ⟨before, content, after, by simp [Emphasis.style, italic], .inl rfl⟩

/-- Bold takes stars away in fours. -/
theorem even_count_convertSpans_bold
    (oneLine : '\n' ∉ text) :
    Even ((convertSpans Emphasis.bold.style text).count '*') ↔ Even (text.count '*') := by
  induction text using SpanStyle.reading Emphasis.bold.mark_ne_nil with
  | nil => rw [convertSpans]
  | plain first rest startsNot inductionHypothesis =>
      rw [List.mem_cons, not_or] at oneLine
      rw [convertSpans_cons startsNot, List.count_cons, List.count_cons, Nat.even_add,
        inductionHypothesis oneLine.2, Nat.even_add]
  | span text content after found inductionHypothesis =>
      obtain ⟨rfl, -⟩ := SpanStyle.eq_append_of_content? found
      simp only [List.mem_append, not_or] at oneLine
      have inElement : (element Emphasis.bold.style.tag content).count '*' = content.count '*' := by
        simp [element, Emphasis.style, bold]
      have inMark : Emphasis.bold.style.mark.count '*' = 2 := rfl
      rw [convertSpans_mark Emphasis.bold.mark_ne_nil found]
      simp only [List.count_append, inElement, inMark, Nat.even_add,
        inductionHypothesis oneLine.2.2]
      tauto
  | opened text notFound => rw [convertSpans_mark_of_eq_none oneLine notFound]

/-- Italic leaves a star open if there is an odd number of them. -/
theorem openPart_italic_eq_nil_iff
    (oneLine : '\n' ∉ text) :
    Emphasis.italic.style.openPart text = [] ↔ Even (text.count '*') := by
  induction text using SpanStyle.reading Emphasis.italic.mark_ne_nil with
  | nil => simp [SpanStyle.openPart]
  | plain first rest startsNot inductionHypothesis =>
      have notStar : first ≠ '*' := by
        rintro rfl
        exact startsNot ⟨rest, rfl⟩
      rw [List.mem_cons, not_or] at oneLine
      rw [SpanStyle.openPart_cons startsNot, inductionHypothesis oneLine.2,
        List.count_cons_of_ne notStar]
  | span text content after found inductionHypothesis =>
      have absent : '*' ∉ content := by
        rw [← List.singleton_infix_iff]
        exact Text.not_infix_of_cutAround? Emphasis.italic.mark_ne_nil found
      obtain ⟨rfl, -⟩ := SpanStyle.eq_append_of_content? found
      simp only [List.mem_append, not_or] at oneLine
      have inMark : Emphasis.italic.style.mark.count '*' = 1 := rfl
      rw [SpanStyle.openPart_mark Emphasis.italic.mark_ne_nil found]
      simp only [List.count_append, inMark, List.count_eq_zero_of_not_mem absent, Nat.even_add,
        inductionHypothesis oneLine.2.2]
      simp
  | opened text notFound =>
      have absent : '*' ∉ text := by
        intro among
        obtain ⟨before, after, rfl⟩ := List.append_of_mem among
        have whole : before ++ '*' :: after = before ++ Emphasis.italic.style.mark ++ after := by
          simp [Emphasis.style, italic]
        rw [whole] at oneLine notFound
        rw [List.mem_append, not_or] at oneLine
        exact SpanStyle.content?_ne_none Emphasis.italic.mark_ne_nil oneLine.2 (.inl rfl) notFound
      rw [SpanStyle.openPart_mark_of_eq_none Emphasis.italic.mark_ne_nil notFound]
      simp [Emphasis.style, italic, List.count_eq_zero_of_not_mem absent]

/-- The passes of bold and italic spare a target if no star of it stands in a span. -/
theorem spares_italic_iff
    (labelLine : '\n' ∉ label) :
    Emphasis.bold.style.Spares label target ∧
        Emphasis.italic.style.Spares (convertSpans Emphasis.bold.style label) target ↔
      target.count '*' = 0 ∨ target.count '*' = 1 ∧ Even (label.count '*') := by
  have boldLine : '\n' ∉ convertSpans Emphasis.bold.style label :=
    not_mem_convertSpans .bold labelLine labelLine (by decide)
  have ofItalic : Emphasis.italic.style.Spares (convertSpans Emphasis.bold.style label) target ↔
      target.count '*' = 0 ∨ Even (label.count '*') ∧ target.count '*' < 2 := by
    rw [SpanStyle.Spares, star_infix_iff, not_not, openPart_italic_eq_nil_iff boldLine,
      even_count_convertSpans_bold labelLine, hasSpan_italic_iff, not_le]
  have ofBold (few : target.count '*' < 2) : Emphasis.bold.style.Spares label target := by
    refine .inl fun inside => ?_
    have several := inside.sublist.count_le '*'
    rw [show Emphasis.bold.style.mark.count '*' = 2 from rfl] at several
    omega
  rw [ofItalic]
  constructor
  · rintro ⟨-, none | ⟨even, few⟩⟩
    · exact .inl none
    · rcases Nat.lt_succ_iff_lt_or_eq.mp few with none | one
      · exact .inl (by omega)
      · exact .inr ⟨one, even⟩
  · rintro (none | ⟨one, even⟩)
    · exact ⟨ofBold (by omega), .inl none⟩
    · exact ⟨ofBold (by omega), .inr ⟨even, by omega⟩⟩

end Stars

/-! ## Underscores -/

section Underscores

/-- Where a reader of underlined spans stands. -/
inductive UnderlineState where
  /-- Outside of a span. -/
  | outside
  /-- Behind the first half of an opening mark. -/
  | opening
  /-- Behind an opening mark. -/
  | opened
  /-- Inside a span. -/
  | inside
  /-- Behind the first half of a closing mark. -/
  | closing

namespace UnderlineState

/-- The state behind a character. -/
def next (state : UnderlineState) (character : Char) : UnderlineState :=
  match state with
  | outside => if character = '_' then opening else outside
  | opening => if character = '_' then opened else outside
  | opened => inside
  | inside => if character = '_' then closing else inside
  | closing => if character = '_' then outside else inside

/-- No span is open. -/
def IsClosed : UnderlineState → Prop
  | outside | opening => True
  | opened | inside | closing => False

/-- A character that begins no mark does not change where a reader stands, unless it is the last. -/
theorem foldl_next_cons
    {character : Char}
    {rest : List Char}
    {state : UnderlineState}
    (between : state = outside ∨ state = inside)
    (startsNot : ¬['_', '_'] <+: character :: rest)
    (notLast : rest ≠ []) :
    (character :: rest).foldl next state = rest.foldl next state := by
  obtain ⟨second, rest, rfl⟩ := List.exists_cons_of_ne_nil notLast
  rw [List.cons_prefix_cons, List.cons_prefix_cons] at startsNot
  rcases between with rfl | rfl <;> by_cases first : character = '_' <;> simp_all [next, eq_comm]

/-- A mark that is found ends a span. -/
theorem foldl_next_inside
    {before : List Char}
    (found : upTo? ['_', '_'] text = some (before, after)) :
    text.foldl next inside = after.foldl next outside := by
  induction text generalizing before with
  | nil => contradiction
  | cons character rest inductionHypothesis =>
      rw [upTo?, Text.cutAround?] at found
      split at found
      · rename_i starts
        obtain ⟨behind, whole⟩ := List.isPrefixOf_iff_prefix.mp starts
        obtain ⟨-, rfl⟩ := Prod.mk.inj (Option.some.inj found)
        rw [← whole]
        rfl
      · rename_i startsNot
        rw [List.isPrefixOf_iff_prefix] at startsNot
        split at found
        · contradiction
        · obtain ⟨⟨inner, behind⟩, searched, same⟩ := Option.map_eq_some_iff.mp found
          obtain ⟨rfl, rfl⟩ := Prod.mk.inj same
          have notLast : rest ≠ [] := by
            rintro rfl
            contradiction
          rw [foldl_next_cons (.inr rfl) startsNot notLast, inductionHypothesis searched]

/-- A span that no mark ends goes on to the end of the line. -/
theorem not_isClosed_foldl_next_inside
    (absent : ¬['_', '_'] <:+: text) :
    ¬(text.foldl next inside).IsClosed := by
  induction text with
  | nil => exact id
  | cons character rest inductionHypothesis =>
      rw [List.infix_cons_iff, not_or] at absent
      by_cases isLast : rest = []
      · subst isLast
        by_cases first : character = '_' <;> simp [next, first, IsClosed]
      · rw [foldl_next_cons (.inr rfl) absent.1 isLast]
        exact inductionHypothesis absent.2

theorem openPart_underline_eq_nil_iff
    (oneLine : '\n' ∉ text) :
    Emphasis.underline.style.openPart text = [] ↔ (text.foldl next outside).IsClosed := by
  induction text using SpanStyle.reading Emphasis.underline.mark_ne_nil with
  | nil => simp [SpanStyle.openPart, IsClosed]
  | plain first rest startsNot inductionHypothesis =>
      rw [List.mem_cons, not_or] at oneLine
      rw [SpanStyle.openPart_cons startsNot]
      by_cases isLast : rest = []
      · subst isLast
        by_cases isHalf : first = '_' <;> simp [SpanStyle.openPart, next, isHalf, IsClosed]
      · rw [foldl_next_cons (.inl rfl) startsNot isLast, inductionHypothesis oneLine.2]
  | span text content after found inductionHypothesis =>
      rw [SpanStyle.openPart_mark Emphasis.underline.mark_ne_nil found]
      change upToLater? ['_', '_'] text = _ at found
      cases text with
      | nil => contradiction
      | cons first text =>
          rw [upToLater?] at found
          split at found
          · contradiction
          · obtain ⟨⟨inner, behind⟩, searched, same⟩ := Option.map_eq_some_iff.mp found
            obtain ⟨rfl, rfl⟩ := Prod.mk.inj same
            simp only [List.mem_append, List.mem_cons, not_or] at oneLine
            have afterLine : '\n' ∉ behind := fun among => oneLine.2.2 <| by
              rw [Text.eq_append_of_cutAround? searched]
              exact List.mem_append_right _ among
            rw [inductionHypothesis afterLine, ← foldl_next_inside searched]
            rfl
  | opened text notFound =>
      rw [SpanStyle.openPart_mark_of_eq_none Emphasis.underline.mark_ne_nil notFound]
      change upToLater? ['_', '_'] text = _ at notFound
      refine iff_of_false (by simp [Emphasis.mark_ne_nil]) ?_
      cases text with
      | nil => exact id
      | cons first text =>
          simp only [List.mem_append, List.mem_cons, not_or] at oneLine
          rw [upToLater?, if_neg (Ne.symm oneLine.2.1), Option.map_eq_none_iff, upTo?,
            Text.cutAround?_eq_none_iff (by simp) (beq_lineFeed_eq_false oneLine.2.2)] at notFound
          exact not_isClosed_foldl_next_inside notFound

/-- The tags of bold and italic are read like their marks: they have no underscore. -/
theorem exists_element_eq
    {emphasis : Emphasis}
    (differs : emphasis ≠ .underline)
    (content : List Char) :
    ∃ opening closing, element emphasis.style.tag content = opening ++ content ++ closing ∧
      ∀ state, opening.foldl next state = emphasis.style.mark.foldl next state ∧
        closing.foldl next state = emphasis.style.mark.foldl next state := by
  refine ⟨'<' :: emphasis.style.tag ++ ['>'], '<' :: '/' :: emphasis.style.tag ++ ['>'],
    by simp [element], fun state => ?_⟩
  cases emphasis with
  | bold | italic => cases state <;> exact ⟨rfl, rfl⟩
  | underline => contradiction

/-- The passes of bold and italic leave the underscores of a text as they stand. -/
theorem foldl_next_convertSpans
    {emphasis : Emphasis}
    (differs : emphasis ≠ .underline)
    (oneLine : '\n' ∉ text)
    (state : UnderlineState) :
    (convertSpans emphasis.style text).foldl next state = text.foldl next state := by
  induction text using SpanStyle.reading emphasis.mark_ne_nil generalizing state with
  | nil => rw [convertSpans]
  | plain first rest startsNot inductionHypothesis =>
      rw [List.mem_cons, not_or] at oneLine
      rw [convertSpans_cons startsNot, List.foldl_cons, List.foldl_cons,
        inductionHypothesis oneLine.2]
  | span text content after found inductionHypothesis =>
      obtain ⟨rfl, -⟩ := SpanStyle.eq_append_of_content? found
      simp only [List.mem_append, not_or] at oneLine
      obtain ⟨opening, closing, isElement, sameState⟩ := exists_element_eq differs content
      rw [convertSpans_mark emphasis.mark_ne_nil found, isElement]
      simp only [List.foldl_append, (sameState _).1, (sameState _).2,
        inductionHypothesis oneLine.2.2]
  | opened text notFound => rw [convertSpans_mark_of_eq_none oneLine notFound]

end UnderlineState

/-- Bold and italic do not change whether the label leaves an underline open. -/
theorem spares_underline_iff
    (target : List Char)
    (labelLine : '\n' ∉ label) :
    Emphasis.underline.style.Spares (convertPasses [.bold, .italic] label) target ↔
      Emphasis.underline.style.Spares label target := by
  have boldLine := not_mem_convertSpans .bold labelLine labelLine (by decide)
  have italicLine := not_mem_convertSpans .italic boldLine boldLine (by decide)
  change _ ∨ Emphasis.underline.style.openPart
    (convertSpans Emphasis.italic.style (convertSpans Emphasis.bold.style label)) = [] ∧ _ ↔ _
  rw [SpanStyle.Spares, UnderlineState.openPart_underline_eq_nil_iff italicLine,
    UnderlineState.openPart_underline_eq_nil_iff labelLine,
    UnderlineState.foldl_next_convertSpans (by decide) boldLine,
    UnderlineState.foldl_next_convertSpans (by decide) labelLine]

end Underscores

/-! ## Links -/

section Links

/--
No span takes a part of a target: it has no star, or one star that no star of the label is left for,
and an underline neither stands in it nor is left open for it by the label.
-/
def IsTargetWritten (label target : List Char) : Prop :=
  (target.count '*' = 0 ∨ target.count '*' = 1 ∧ Even (label.count '*')) ∧
    underline.Spares label target

theorem isSpared_passes_iff
    (labelLine : '\n' ∉ label) :
    IsSpared passes label target ↔ IsTargetWritten label target := by
  rw [IsTargetWritten, ← spares_italic_iff labelLine]
  have underlined := spares_underline_iff target labelLine
  simp only [passes, IsSpared, and_true, ← and_assoc]
  exact and_congr_right fun _ => underlined

/--
A link stays one link with one target, which its attribute shows and the classifier is asked about.
It is the target as it is written if and only if no span takes a part of it.
-/
theorem exists_transform_link
    (isLink : IsLink label target)
    (isImage : Classifier) :
    ∃ newLabel newTarget,
      transform (.ofList (Piece.link label target).source) isImage =
          .ofList ((Piece.link newLabel newTarget).html isImage) ∧
        (transformWith (noting isImage) (.ofList (Piece.link label target).source)).run [] =
          (.ofList ((Piece.link newLabel newTarget).html isImage), [.ofList newTarget]) ∧
        (newTarget = target ↔ IsTargetWritten label target) ∧
        (IsTargetWritten label target → newLabel = convertPasses passes label) := by
  obtain ⟨newLabel, newTarget, ran, spared, changed⟩ := exists_run_transformWith_link isLink isImage
  have shown := congrArg Prod.fst ran
  rw [run_transformWith_noting] at shown
  rw [isSpared_passes_iff isLink.labelLine] at spared changed
  refine ⟨newLabel, newTarget, shown, ran, ⟨fun same => ?_, fun written => (spared written).2⟩,
    fun written => (spared written).1⟩
  exact not_not.mp fun notWritten => changed notWritten same

/-- A label with spans and an open underline, and a target with a star and single underscores. -/
theorem exists_transform_link_starred :
    IsLink "a **b** *c* __d".toList "/x*_y_".toList ∧
      (transformWith (noting fun _ => false) "[a **b** *c* __d](/x*_y_)").run [] =
        ("<a href='/x*_y_'>a <b>b</b> <i>c</i> __d</a>", ["/x*_y_"]) := by
  have isLink : IsLink "a **b** *c* __d".toList "/x*_y_".toList := by
    constructor <;> decide
  have written : IsTargetWritten "a **b** *c* __d".toList "/x*_y_".toList :=
    ⟨.inr ⟨by decide, by decide⟩, .inl (by decide)⟩
  have isLabel : convertPasses passes "a **b** *c* __d".toList =
      "a <b>b</b> <i>c</i> __d".toList := by
    cbv
  obtain ⟨newLabel, newTarget, -, ran, isTarget, isNewLabel⟩ :=
    exists_transform_link isLink fun _ => false
  rw [isNewLabel written, isTarget.mpr written, isLabel] at ran
  exact ⟨isLink, ran⟩

/-- An underline in a target is converted, and so is one star of it with another of the label. -/
theorem linkTargets_spanned :
    linkTargets (.ofList (Piece.link ['x'] "/__init__.py".toList).source) = ["/<u>init</u>.py"] ∧
      linkTargets (.ofList (Piece.link "*x".toList "/a*b".toList).source) = ["/a</i>b"] ∧
      linkTargets (.ofList (Piece.link "a]b".toList ['t']).source) = [] := by
  simp only [linkTargets_eq, String.toList_ofList]
  refine ⟨by cbv, by cbv, by cbv⟩

end Links

end Document
end TemplatedMarkup
