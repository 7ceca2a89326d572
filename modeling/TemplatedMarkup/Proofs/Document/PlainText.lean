import TemplatedMarkup.Document.Block
import TemplatedMarkup.Proofs.Document.Classified
import TemplatedMarkup.Proofs.Document.Comment
import TemplatedMarkup.Proofs.Text.Html

/-!
# Text without marks

Each conversion of markup starts at a mark, and so do the joining of lines and the splitting into
blocks.  A text without the marks stays as it is.
-/

namespace TemplatedMarkup
namespace Text

variable {text : List Char} {character : Char}

/-- A line has only characters of the text. -/
theorem mem_of_mem_lineLists
    {line : List Char}
    (isLine : line ∈ lineLists text)
    (among : character ∈ line) :
    character ∈ text := by
  obtain ⟨piece, isPiece, starts⟩ := exists_piece_of_mem_lineLists isLine
  exact mem_of_mem_splitOn isPiece (starts.subset among)

end Text

namespace Document

variable {text : List Char}

/-! ## Lines -/

/-- A line that is not the last one is converted with its end. -/
theorem convertLines_cons
    {form? : List Char → Option (List Char)}
    {line : List Char}
    {lines : List (List Char)}
    (nonempty : lines ≠ []) :
    convertLines form? (line :: lines) =
      match form? line with
      | some form => form ++ convertLines form? lines
      | none => line ++ '\n' :: convertLines form? lines := by
  cases lines with
  | nil => contradiction
  | cons next lines => rfl

/-- Lines without a form are joined again. -/
theorem convertLines_eq_intercalate
    {form? : List Char → Option (List Char)}
    {lines : List (List Char)}
    (noForm : ∀ line ∈ lines, form? line = none) :
    convertLines form? lines = ['\n'].intercalate lines := by
  induction lines with
  | nil => rfl
  | cons line lines inductionHypothesis =>
      rw [List.forall_mem_cons] at noForm
      cases lines with
      | nil => simp [convertLines, noForm.1]
      | cons next lines =>
          rw [convertLines_cons (List.cons_ne_nil _ _), noForm.1, inductionHypothesis noForm.2,
            List.intercalate_cons_cons]
          simp

/-- A form that needs a character converts no line of a text without it. -/
theorem convertLines_splitOn
    {form? : List Char → Option (List Char)}
    {mark : Char}
    (needs : ∀ line, mark ∉ line → form? line = none)
    (absent : mark ∉ text) :
    convertLines form? (text.splitOn '\n') = text := by
  rw [convertLines_eq_intercalate fun line isLine =>
    needs line fun among => absent (Text.mem_of_mem_splitOn isLine among)]
  exact List.intercalate_splitOn '\n'

theorem headingForm?_eq_none
    {level : Nat}
    {line : List Char}
    (positive : 0 < level)
    (noHash : '#' ∉ line) :
    headingForm? level line = none := by
  refine if_neg fun starts => noHash ?_
  obtain ⟨fewer, rfl⟩ := Nat.exists_eq_succ_of_ne_zero (Nat.ne_of_gt positive)
  exact (List.isPrefixOf_iff_prefix.mp starts).subset List.mem_cons_self

theorem ruleForm?_eq_none
    {line : List Char}
    (noDash : '-' ∉ line) :
    ruleForm? line = none := by
  refine if_neg fun isRule => noDash ?_
  rw [Bool.and_eq_true, decide_eq_true_eq, List.all_eq_true] at isRule
  obtain ⟨dash, among⟩ := List.exists_mem_of_length_pos (Nat.zero_lt_of_lt isRule.1)
  obtain rfl : dash = '-' := by simpa using isRule.2 dash among
  exact Text.mem_of_mem_trimEndWhere among

theorem convertHeadings_eq_self
    {level : Nat}
    (positive : 0 < level)
    (noHash : '#' ∉ text) :
    convertHeadings text level = text :=
  convertLines_splitOn (fun _ => headingForm?_eq_none positive) noHash

theorem foldl_convertHeadings_eq_self
    {levels : List Nat}
    (positive : ∀ level ∈ levels, 0 < level)
    (noHash : '#' ∉ text) :
    levels.foldl convertHeadings text = text := by
  induction levels with
  | nil => rfl
  | cons level levels inductionHypothesis =>
      rw [List.forall_mem_cons] at positive
      rw [List.foldl_cons, convertHeadings_eq_self positive.1 noHash,
        inductionHypothesis positive.2]

theorem convertRules_eq_self
    (noDash : '-' ∉ text) :
    convertRules text = text :=
  convertLines_splitOn (fun _ => ruleForm?_eq_none) noDash

/-! ## Spans and links -/

/-- A text without the first character of a mark has no span of the style. -/
theorem convertSpans_append
    {style : SpanStyle}
    {first : Char}
    {others : List Char}
    (isMark : style.mark = first :: others)
    (absent : first ∉ text)
    (rest : List Char) :
    convertSpans style (text ++ rest) = text ++ convertSpans style rest := by
  induction text with
  | nil => rfl
  | cons character text inductionHypothesis =>
      rw [List.mem_cons, not_or] at absent
      have notHere : ¬style.mark.isPrefixOf (character :: (text ++ rest)) := by
        rw [isMark, List.isPrefixOf_iff_prefix]
        exact fun starts => absent.1 (List.cons_prefix_cons.mp starts).1
      rw [List.cons_append, convertSpans, if_neg notHere, inductionHypothesis absent.2]
      rfl

theorem convertSpans_eq_self
    {style : SpanStyle}
    {first : Char}
    {others : List Char}
    (isMark : style.mark = first :: others)
    (absent : first ∉ text) :
    convertSpans style text = text := by
  simpa [convertSpans] using convertSpans_append isMark absent []

/-- A text without brackets has no links. -/
theorem inlines_append
    (noBracket : '[' ∉ text)
    (rest : List Char) :
    inlines (text ++ rest) = text.map .character ++ inlines rest := by
  induction text with
  | nil => rfl
  | cons character text inductionHypothesis =>
      rw [List.mem_cons, not_or] at noBracket
      rw [List.cons_append, inlines, if_neg (Ne.symm noBracket.1), inductionHypothesis noBracket.2]
      rfl

theorem inlines_eq_map
    (noBracket : '[' ∉ text) :
    inlines text = text.map .character := by
  simpa [inlines] using inlines_append noBracket []

theorem convertSpansAndLines_eq_self
    (noHash : '#' ∉ text)
    (noStar : '*' ∉ text)
    (noUnderscore : '_' ∉ text)
    (noDash : '-' ∉ text) :
    convertSpansAndLines text = text := by
  have positive : ∀ level ∈ headingLevels, 0 < level := by decide
  rw [convertSpansAndLines, foldl_convertHeadings_eq_self positive noHash]
  change convertRules (convertSpans underline (convertSpans italic (convertSpans bold text))) = text
  rw [convertSpans_eq_self rfl noStar, convertSpans_eq_self rfl noStar,
    convertSpans_eq_self rfl noUnderscore, convertRules_eq_self noDash]

/-- A body without marks has no markup, whatever the classifier tells. -/
theorem transform_eq_self
    {body : String}
    (noHash : '#' ∉ body.toList)
    (noStar : '*' ∉ body.toList)
    (noUnderscore : '_' ∉ body.toList)
    (noDash : '-' ∉ body.toList)
    (noBracket : '[' ∉ body.toList)
    (isImage : Classifier) :
    transform body isImage = body := by
  rw [transform_eq, convertSpansAndLines_eq_self noHash noStar noUnderscore noDash,
    inlines_eq_map noBracket, List.flatMap_map]
  simp [Inline.render]

/-! ## Joined lines and blocks -/

theorem joinContinuations_eq_self
    {body : String}
    (noBackslash : '\\' ∉ body.toList) :
    joinContinuations body = body := by
  have kept : joinLines body.toList = body.toList := by
    generalize body.toList = text at noBackslash ⊢
    induction text with
    | nil => rw [joinLines]
    | cons character text inductionHypothesis =>
        rw [List.mem_cons, not_or] at noBackslash
        rw [joinLines, if_neg (Ne.symm noBackslash.1), inductionHypothesis noBackslash.2]
  rw [joinContinuations, kept, String.ofList_toList]

/-- Without its comments a text has no new characters. -/
theorem mem_of_mem_stripCommentList
    {character : Char}
    (noLineFeed : character ≠ '\n')
    (among : character ∈ stripCommentList text) :
    character ∈ text := by
  rcases Text.mem_of_mem_intercalate among with isLineFeed | ⟨kept, isKept, inKept⟩
  · exact absurd (List.mem_singleton.mp isLineFeed) noLineFeed
  · obtain ⟨line, isLine, rfl⟩ := List.mem_map.mp isKept
    exact Text.mem_of_mem_splitOn isLine ((prefix_of_cutComment none line).subset inKept)

/-- A line without a dash is no marker. -/
theorem Marker.ofLine_eq_content
    {line : List Char}
    (noDash : '-' ∉ line) :
    Marker.ofLine line = .content := by
  unfold Marker.ofLine
  split
  · rename_i after starts
    have among : '-' ∈ line.dropWhile isIndent := by simp [starts]
    exact absurd ((List.dropWhile_sublist _).subset among) noDash
  · rfl

/-- Lines that are no markers belong to no block when none is open. -/
theorem readBlocks_of_content
    {lines : List (List Char)}
    (areContent : ∀ line ∈ lines, Marker.ofLine line = .content)
    (strict : Bool)
    (number : Nat)
    (blocks : Blocks) :
    readBlocks strict number none blocks lines = .ok blocks := by
  induction lines generalizing number with
  | nil => rfl
  | cons line lines inductionHypothesis =>
      rw [List.forall_mem_cons] at areContent
      rw [readBlocks, areContent.1]
      exact inductionHypothesis areContent.2 (number + 1)

/-- A source without dashes has no blocks. -/
theorem extract_eq_empty
    {source : String}
    (noDash : '-' ∉ source.toList)
    (strict : Bool) :
    extract source strict = .ok .empty := by
  refine readBlocks_of_content (fun line isLine => Marker.ofLine_eq_content fun among => ?_) _ _ _
  exact noDash (mem_of_mem_stripCommentList (by decide) (Text.mem_of_mem_lineLists isLine among))

end Document
end TemplatedMarkup
