import TemplatedMarkup.Proofs.Document.OpenMark
import TemplatedMarkup.Proofs.Document.SpanMarkup

/-!
# Targets of links

Links are converted last, so the passes of the spans go over a target before it is read.  A target
is taken as it is written unless a span ends in it: one that begins in the target itself, or one
that the label leaves open.  Whatever the passes do, what is left is one link again.
-/

namespace TemplatedMarkup
namespace Document

variable
  {emphasis : Emphasis}
  {text label target : List Char}
  {character : Char}

/-- A label and a target that a link can be written with. -/
structure IsLink (label target : List Char) : Prop where
  labelLine : '\n' ∉ label
  noBracket : ']' ∉ label
  nonempty : target ≠ []
  targetLine : '\n' ∉ target
  noParenthesis : ')' ∉ target

/-- No span of a style ends in the target. -/
def SpanStyle.Spares (style : SpanStyle) (label target : List Char) : Prop :=
  ¬style.mark <:+: target ∨ style.openPart label = [] ∧ ¬style.HasSpan target

/-- How many stars and underscores a text has. -/
def markCount (text : List Char) : Nat :=
  text.countP fun character => character == '*' || character == '_'

/-! ## Characters of a converted line -/

section Characters

theorem Emphasis.mark_ne_nil (emphasis : Emphasis) : emphasis.style.mark ≠ [] := by
  cases emphasis <;> exact List.cons_ne_nil _ _

/-- A pass leaves a line as it is from an open mark on. -/
theorem convertSpans_mark_of_eq_none
    (oneLine : '\n' ∉ emphasis.style.mark ++ text)
    (notFound : emphasis.style.content? text = none) :
    convertSpans emphasis.style (emphasis.style.mark ++ text) = emphasis.style.mark ++ text := by
  rw [List.mem_append, not_or] at oneLine
  exact convertSpans_eq_self_of_not_hasSpan emphasis.mark_ne_nil
    (SpanStyle.not_hasSpan_mark emphasis.mark_ne_nil oneLine.2 notFound)

/-- A pass brings no characters but those of the tags. -/
theorem not_mem_convertSpans
    (emphasis : Emphasis)
    (oneLine : '\n' ∉ text)
    (absent : character ∉ text)
    (notTag : character ∉ "</biu>".toList) :
    character ∉ convertSpans emphasis.style text := by
  induction text using SpanStyle.reading emphasis.mark_ne_nil with
  | nil => simp [convertSpans]
  | plain first rest startsNot inductionHypothesis =>
      rw [List.mem_cons, not_or] at oneLine absent
      rw [convertSpans_cons startsNot, List.mem_cons, not_or]
      exact ⟨absent.1, inductionHypothesis oneLine.2 absent.2⟩
  | span text content after found inductionHypothesis =>
      obtain ⟨rfl, -⟩ := SpanStyle.eq_append_of_content? found
      have inTag : character ∉ emphasis.style.tag := by
        cases emphasis <;> simp_all [Emphasis.style, bold, italic, underline]
      simp only [List.mem_append, not_or] at oneLine absent
      have behind := inductionHypothesis oneLine.2.2 absent.2.2
      rw [convertSpans_mark emphasis.mark_ne_nil found]
      simp_all [element]
  | opened text notFound => rwa [convertSpans_mark_of_eq_none oneLine notFound]

theorem convertSpans_ne_nil
    {style : SpanStyle}
    (nonempty : text ≠ []) :
    convertSpans style text ≠ [] := by
  obtain ⟨first, rest, rfl⟩ := List.exists_cons_of_ne_nil nonempty
  rw [convertSpans]
  split
  · split <;> simp [element]
  · exact List.cons_ne_nil _ _

theorem markCount_append (front behind : List Char) :
    markCount (front ++ behind) = markCount front + markCount behind :=
  List.countP_append

theorem markCount_cons (character : Char) (text : List Char) :
    markCount (character :: text) = markCount [character] + markCount text :=
  markCount_append [character] text

theorem markCount_element (emphasis : Emphasis) (content : List Char) :
    markCount (element emphasis.style.tag content) = markCount content := by
  cases emphasis <;> simp [element, markCount, Emphasis.style, bold, italic, underline]

theorem Emphasis.markCount_mark_pos (emphasis : Emphasis) :
    0 < markCount emphasis.style.mark := by
  cases emphasis <;> decide

/-- A pass brings no stars and underscores. -/
theorem markCount_convertSpans_le
    (emphasis : Emphasis)
    (oneLine : '\n' ∉ text) :
    markCount (convertSpans emphasis.style text) ≤ markCount text := by
  induction text using SpanStyle.reading emphasis.mark_ne_nil with
  | nil => simp [convertSpans]
  | plain first rest startsNot inductionHypothesis =>
      rw [List.mem_cons, not_or] at oneLine
      rw [convertSpans_cons startsNot, markCount_cons _ rest,
        markCount_cons _ (convertSpans _ rest)]
      exact Nat.add_le_add_left (inductionHypothesis oneLine.2) _
  | span text content after found inductionHypothesis =>
      obtain ⟨rfl, -⟩ := SpanStyle.eq_append_of_content? found
      simp only [List.mem_append, not_or] at oneLine
      have behind := inductionHypothesis oneLine.2.2
      rw [convertSpans_mark emphasis.mark_ne_nil found]
      simp only [markCount_append, markCount_element]
      omega
  | opened text notFound => rw [convertSpans_mark_of_eq_none oneLine notFound]

/-- The marks of a span are taken away. -/
theorem markCount_convertSpans_lt
    (oneLine : '\n' ∉ text)
    (hasSpan : emphasis.style.HasSpan text) :
    markCount (convertSpans emphasis.style text) < markCount text := by
  induction text using SpanStyle.reading emphasis.mark_ne_nil with
  | nil =>
      obtain ⟨before, content, after, nothing, -⟩ := hasSpan
      simp [emphasis.mark_ne_nil] at nothing
  | plain first rest startsNot inductionHypothesis =>
      obtain ⟨before, content, after, same, encloses⟩ := hasSpan
      rw [List.mem_cons, not_or] at oneLine
      have behind : emphasis.style.HasSpan rest := by
        cases before with
        | nil =>
            refine absurd ?_ startsNot
            rw [same, List.nil_append, List.append_assoc, List.append_assoc]
            exact List.prefix_append _ _
        | cons other before =>
            exact ⟨before, content, after, (List.cons.inj same).2, encloses⟩
      rw [convertSpans_cons startsNot, markCount_cons _ rest,
        markCount_cons _ (convertSpans _ rest)]
      exact Nat.add_lt_add_left (inductionHypothesis oneLine.2 behind) _
  | span text content after found inductionHypothesis =>
      obtain ⟨rfl, -⟩ := SpanStyle.eq_append_of_content? found
      simp only [List.mem_append, not_or] at oneLine
      have behind := markCount_convertSpans_le emphasis oneLine.2.2
      have positive := emphasis.markCount_mark_pos
      rw [convertSpans_mark emphasis.mark_ne_nil found]
      simp only [markCount_append, markCount_element]
      omega
  | opened text notFound =>
      rw [List.mem_append, not_or] at oneLine
      exact absurd hasSpan
        (SpanStyle.not_hasSpan_mark emphasis.mark_ne_nil oneLine.2 notFound)

end Characters

/-! ## One pass over a link -/

section Pass

/-- The characters around a label and a target are not those of a mark. -/
theorem Emphasis.not_mem_mark (emphasis : Emphasis) :
    ']' ∉ emphasis.style.mark ∧ '(' ∉ emphasis.style.mark ∧ ')' ∉ emphasis.style.mark ∧
      '[' ∉ emphasis.style.mark := by
  cases emphasis <;> decide

theorem convertSpans_cons_of_not_mem
    (apart : character ∉ emphasis.style.mark)
    (rest : List Char) :
    convertSpans emphasis.style (character :: rest) =
      character :: convertSpans emphasis.style rest :=
  convertSpans_cons (Text.not_prefix_cons emphasis.mark_ne_nil apart)

/-- A pass leaves the parenthesis behind a target. -/
theorem convertSpans_append_parenthesis
    (targetLine : '\n' ∉ target) :
    convertSpans emphasis.style (target ++ [')']) =
      convertSpans emphasis.style target ++ [')'] := by
  refine convertSpans_append_of_not_infix emphasis.mark_ne_nil (by simp [targetLine])
    emphasis.not_mem_mark.2.2.1 fun inside => ?_
  rw [← List.nil_append [')'], Text.infix_append_cons_iff emphasis.not_mem_mark.2.2.1] at inside
  exact emphasis.mark_ne_nil (by simpa using inside)

/-- From the label, a mark is searched up to the first one of the target. -/
theorem exists_upTo?_target
    (targetLine : '\n' ∉ target)
    (hasMark : emphasis.style.mark <:+: target) :
    ∃ before after, target = before ++ emphasis.style.mark ++ after ∧
      upTo? emphasis.style.mark ('(' :: (target ++ [')'])) =
        some ('(' :: before, after ++ [')']) := by
  have found : upTo? emphasis.style.mark target ≠ none := by
    rwa [upTo?, ne_eq, Text.cutAround?_eq_none_iff emphasis.mark_ne_nil
      (beq_lineFeed_eq_false targetLine), not_not]
  obtain ⟨⟨before, after⟩, found⟩ := Option.ne_none_iff_exists'.mp found
  refine ⟨before, after, Text.eq_append_of_cutAround? found, ?_⟩
  rw [upTo?, ← List.nil_append ('(' :: _), Text.cutAround?_append_of_eq_none emphasis.mark_ne_nil
    (beq_lineFeed_eq_false (by simp)) emphasis.not_mem_mark.2.1 rfl,
    Text.cutAround?_append_of_eq_some found [')']]
  rfl

/-- The first mark of a target closes the one that the label leaves open. -/
theorem exists_convertSpans_link_of_closing
    (isLink : IsLink label target)
    (isOpen : emphasis.style.openPart label ≠ [])
    (hasMark : emphasis.style.mark <:+: target) :
    ∃ newLabel newTarget,
      convertSpans emphasis.style (label ++ ']' :: '(' :: (target ++ [')'])) =
        newLabel ++ ']' :: '(' :: (newTarget ++ [')']) ∧
      IsLink newLabel newTarget ∧ markCount newTarget < markCount target := by
  obtain ⟨labelLine, noBracket, -, targetLine, noParenthesis⟩ := isLink
  obtain ⟨before, after, rfl, closing⟩ := exists_upTo?_target targetLine hasMark
  obtain ⟨converted, behind, alone, together⟩ := convertSpans_append_of_closing emphasis.mark_ne_nil
    (by simpa using labelLine) isOpen emphasis.not_mem_mark.1 closing
  have keptLine := not_mem_convertSpans emphasis labelLine labelLine (by decide)
  have keptBracket := not_mem_convertSpans emphasis labelLine noBracket (by decide)
  simp only [List.mem_append, not_or] at targetLine noParenthesis
  have afterLine := not_mem_convertSpans emphasis targetLine.2 targetLine.2 (by decide)
  have afterParenthesis :=
    not_mem_convertSpans emphasis targetLine.2 noParenthesis.2 (by decide)
  simp only [alone, List.mem_append, not_or] at keptLine keptBracket
  have inTag : '\n' ∉ emphasis.style.tag ∧ ']' ∉ emphasis.style.tag ∧ ')' ∉ emphasis.style.tag := by
    cases emphasis <;> decide
  refine ⟨converted ++ '<' :: emphasis.style.tag ++ '>' :: behind,
    before ++ ('<' :: '/' :: emphasis.style.tag ++ ['>']) ++ convertSpans emphasis.style after,
    ?_, ?_, ?_⟩
  · rw [together, convertSpans_append_parenthesis targetLine.2]
    simp [element]
  · constructor <;> simp_all
  · have positive := emphasis.markCount_mark_pos
    have fewer := markCount_convertSpans_le emphasis targetLine.2
    have inClosing : markCount ('<' :: '/' :: emphasis.style.tag ++ ['>']) = 0 := by
      cases emphasis <;> decide
    simp only [markCount_append, inClosing]
    omega

/-- A pass makes a link of a link, and changes its target if the target is not spared. -/
theorem exists_convertSpans_link
    (emphasis : Emphasis)
    (isLink : IsLink label target) :
    ∃ newLabel newTarget,
      convertSpans emphasis.style (label ++ ']' :: '(' :: (target ++ [')'])) =
        newLabel ++ ']' :: '(' :: (newTarget ++ [')']) ∧
      IsLink newLabel newTarget ∧
      (emphasis.style.Spares label target →
        newLabel = convertSpans emphasis.style label ∧ newTarget = target) ∧
      (¬emphasis.style.Spares label target → markCount newTarget < markCount target) := by
  obtain ⟨apartBracket, apartParenthesis, apartEnd, -⟩ := emphasis.not_mem_mark
  have ⟨labelLine, noBracket, nonempty, targetLine, noParenthesis⟩ := isLink
  have newLine := not_mem_convertSpans emphasis labelLine labelLine (by decide)
  have newBracket := not_mem_convertSpans emphasis labelLine noBracket (by decide)
  by_cases hasMark : emphasis.style.mark <:+: target
  · by_cases closed : emphasis.style.openPart label = []
    · have newTargetLine := not_mem_convertSpans emphasis targetLine targetLine (by decide)
      have newParenthesis := not_mem_convertSpans emphasis targetLine noParenthesis (by decide)
      refine ⟨convertSpans emphasis.style label, convertSpans emphasis.style target, ?_,
        ⟨newLine, newBracket, convertSpans_ne_nil nonempty, newTargetLine, newParenthesis⟩,
        fun spares => ⟨rfl, ?_⟩, ?_⟩
      · rw [convertSpans_append_of_closed emphasis.mark_ne_nil closed (by simpa using apartBracket),
          convertSpans_cons_of_not_mem apartBracket, convertSpans_cons_of_not_mem apartParenthesis,
          convertSpans_append_parenthesis targetLine]
      · exact convertSpans_eq_self_of_not_hasSpan emphasis.mark_ne_nil
          (spares.resolve_left (not_not_intro hasMark)).2
      · intro notSpares
        refine markCount_convertSpans_lt targetLine (not_not.mp fun notHas => notSpares ?_)
        exact .inr ⟨closed, notHas⟩
    · obtain ⟨newLabel, newTarget, passed, isNewLink, fewer⟩ :=
        exists_convertSpans_link_of_closing isLink closed hasMark
      refine ⟨newLabel, newTarget, passed, isNewLink, fun spares => ?_, fun _ => fewer⟩
      exact absurd (spares.resolve_left (not_not_intro hasMark)).1 closed
  · refine ⟨convertSpans emphasis.style label, target, ?_,
      ⟨newLine, newBracket, nonempty, targetLine, noParenthesis⟩, fun _ => ⟨rfl, rfl⟩,
      fun notSpares => absurd (.inl hasMark) notSpares⟩
    refine convertSpans_append_of_not_infix emphasis.mark_ne_nil ?_ apartBracket ?_
    · simp [labelLine, targetLine]
    · rw [← List.nil_append (']' :: _), Text.infix_append_cons_iff apartBracket,
        ← List.nil_append ('(' :: _), Text.infix_append_cons_iff apartParenthesis,
        Text.infix_append_cons_iff apartEnd]
      simpa [emphasis.mark_ne_nil] using hasMark

end Pass

/-! ## All passes over a link -/

section Passes

/-- The styles, in the order of their passes. -/
def passes : List Emphasis := [.bold, .italic, .underline]

/-- A text with its spans converted. -/
def convertPasses (emphases : List Emphasis) (text : List Char) : List Char :=
  emphases.foldl (fun text emphasis => convertSpans emphasis.style text) text

/-- Every pass spares the target, given the label as the earlier passes left it. -/
def IsSpared : List Emphasis → List Char → List Char → Prop
  | [], _, _ => True
  | emphasis :: emphases, label, target =>
      emphasis.style.Spares label target ∧
        IsSpared emphases (convertSpans emphasis.style label) target

theorem source_link (label target : List Char) :
    (Piece.link label target).source = '[' :: (label ++ ']' :: '(' :: (target ++ [')'])) := by
  simp [Piece.source, Piece.text]

/-- Passes make a link of a link, and change its target if one of them does not spare it. -/
theorem exists_convertPasses_link
    (emphases : List Emphasis)
    (isLink : IsLink label target) :
    ∃ newLabel newTarget,
      convertPasses emphases (Piece.link label target).source =
        (Piece.link newLabel newTarget).source ∧
      IsLink newLabel newTarget ∧
      (IsSpared emphases label target →
        newLabel = convertPasses emphases label ∧ newTarget = target) ∧
      (¬IsSpared emphases label target → markCount newTarget < markCount target) := by
  induction emphases generalizing label target with
  | nil =>
      refine ⟨label, target, rfl, isLink, fun _ => ⟨rfl, rfl⟩, fun notSpared => ?_⟩
      exact absurd trivial notSpared
  | cons emphasis emphases inductionHypothesis =>
      obtain ⟨midLabel, midTarget, passed, isMidLink, spared, changed⟩ :=
        exists_convertSpans_link emphasis isLink
      obtain ⟨newLabel, newTarget, passedAll, isNewLink, sparedAll, changedAll⟩ :=
        inductionHypothesis isMidLink
      have step : convertSpans emphasis.style (Piece.link label target).source =
          (Piece.link midLabel midTarget).source := by
        rw [source_link, source_link, convertSpans_cons_of_not_mem emphasis.not_mem_mark.2.2.2,
          passed]
      refine ⟨newLabel, newTarget, ?_, isNewLink, ?_, fun notSpared => ?_⟩
      · rw [convertPasses, List.foldl_cons, step]
        exact passedAll
      · rintro ⟨spares, isSpared⟩
        obtain ⟨rfl, rfl⟩ := spared spares
        exact sparedAll isSpared
      · by_cases spares : emphasis.style.Spares label target
        · obtain ⟨rfl, rfl⟩ := spared spares
          exact changedAll fun isSpared => notSpared ⟨spares, isSpared⟩
        · have fewer := changed spares
          by_cases isSpared : IsSpared emphases midLabel midTarget
          · rwa [(sparedAll isSpared).2]
          · exact (changedAll isSpared).trans fewer

/-- The text of a link is one line, and neither a heading nor a rule. -/
theorem IsLink.convertLines_eq_self
    {form? : List Char → Option (List Char)}
    (isLink : IsLink label target)
    (notForm : ∀ rest, form? ('[' :: rest) = none) :
    convertLines form? ((Piece.link label target).source.splitOn '\n') =
      (Piece.link label target).source := by
  have oneLine : '\n' ∉ (Piece.link label target).source := by
    simp [source_link, isLink.labelLine, isLink.targetLine]
  rw [List.splitOn_eq_singleton oneLine, convertLines, source_link, notForm]
  rfl

theorem IsLink.foldl_convertHeadings_eq_self
    {levels : List Nat}
    (isLink : IsLink label target)
    (positive : ∀ level ∈ levels, 0 < level) :
    levels.foldl convertHeadings (Piece.link label target).source =
      (Piece.link label target).source := by
  induction levels with
  | nil => rfl
  | cons level levels inductionHypothesis =>
      rw [List.forall_mem_cons] at positive
      rw [List.foldl_cons, convertHeadings, isLink.convertLines_eq_self fun rest =>
        headingForm?_eq_none_of_head? positive.1 (by simp)]
      exact inductionHypothesis positive.2

/--
A link stays one link, and the classifier is asked about its target once.  It is the target as it is
written if the passes spare it, and another one if they do not.
-/
theorem exists_run_transformWith_link
    (isLink : IsLink label target)
    (isImage : Classifier) :
    ∃ newLabel newTarget,
      (transformWith (noting isImage) (.ofList (Piece.link label target).source)).run [] =
        (.ofList ((Piece.link newLabel newTarget).html isImage), [.ofList newTarget]) ∧
      (IsSpared passes label target →
        newLabel = convertPasses passes label ∧ newTarget = target) ∧
      (¬IsSpared passes label target → newTarget ≠ target) := by
  obtain ⟨newLabel, newTarget, passed, isNewLink, spared, changed⟩ :=
    exists_convertPasses_link passes isLink
  have converted : convertSpansAndLines (Piece.link label target).source =
      (Piece.link newLabel newTarget).source := by
    rw [convertSpansAndLines, isLink.foldl_convertHeadings_eq_self (by decide)]
    change convertRules (convertPasses passes _) = _
    rw [passed, convertRules, isNewLink.convertLines_eq_self fun rest =>
      ruleForm?_eq_none_of_head? (by simp)]
  have parts : inlines (Piece.link newLabel newTarget).source = [.link newLabel newTarget] := by
    rw [Piece.source, ← List.append_nil (Piece.text _ _), inlines_link isNewLink.labelLine
      isNewLink.noBracket isNewLink.targetLine isNewLink.noParenthesis, inlines]
  refine ⟨newLabel, newTarget, ?_, spared, fun notSpared same => ?_⟩
  · rw [run_transformWith_noting, transform_eq, String.toList_ofList, converted, parts]
    simp [Inline.render, Inline.target?, Piece.html, isNewLink.nonempty]
  · exact absurd (changed notSpared) (same ▸ Nat.lt_irrefl _)

end Passes

end Document
end TemplatedMarkup
