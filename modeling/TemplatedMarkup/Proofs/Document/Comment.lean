import TemplatedMarkup.Document.Comment
import TemplatedMarkup.Proofs.Text.Html
import TemplatedMarkup.Proofs.Text.Occurrence
import TemplatedMarkup.Proofs.Text.Trim

/-!
# Lines without their comments

Cutting off comments works on each line by itself, and what is kept of a line is its start.  A line
is cut where a search for two slashes from the left first finds them without a colon in front; what
is kept has no comment any more.
-/

namespace TemplatedMarkup
namespace Document

/-- The character before a line matters only if it is a colon. -/
theorem cutComment_eq_none
    {previous : Option Char}
    (noColon : previous ≠ some ':')
    (text : List Char) :
    cutComment previous text = cutComment none text := by
  unfold cutComment
  split <;> simp [noColon]

/-- A character that does not start two slashes is kept. -/
theorem cutComment_cons
    {character : Char}
    {rest : List Char}
    (startsNot : ¬['/', '/'] <+: character :: rest)
    (previous : Option Char) :
    cutComment previous (character :: rest) = character :: cutComment (some character) rest := by
  rw [cutComment]
  rintro after rfl rfl
  exact startsNot (List.prefix_append ['/', '/'] after)

/-- What is in front of the first two slashes is kept. -/
theorem cutComment_append_of_first
    {front text : List Char}
    (notBefore : ∀ earlier < front.length, ¬['/', '/'] <+: (front ++ text).drop earlier)
    (previous : Option Char) :
    cutComment previous (front ++ text) =
      front ++ cutComment (front.getLast?.or previous) text := by
  induction front generalizing previous with
  | nil => rfl
  | cons character front inductionHypothesis =>
      have later : ∀ earlier < front.length, ¬['/', '/'] <+: (front ++ text).drop earlier :=
        fun earlier before => notBefore (earlier + 1) (Nat.succ_lt_succ before)
      have startsNot : ¬['/', '/'] <+: character :: (front ++ text) :=
        notBefore 0 (Nat.succ_pos front.length)
      rw [List.cons_append, cutComment_cons startsNot, inductionHypothesis later, List.cons_append]
      cases front <;> simp [List.getLast?_cons]

/-- What has no slash is kept. -/
theorem cutComment_append
    {front : List Char}
    (noSlash : '/' ∉ front)
    (previous : Option Char)
    (text : List Char) :
    cutComment previous (front ++ text) =
      front ++ cutComment (front.getLast?.or previous) text := by
  refine cutComment_append_of_first (fun earlier before starts => noSlash ?_) previous
  rw [List.drop_append_of_le_length before.le, List.drop_eq_getElem_cons before] at starts
  rw [(List.cons_prefix_cons.mp starts).1]
  exact List.getElem_mem before

/-- What is kept of a line is its start. -/
theorem prefix_of_cutComment
    (previous : Option Char)
    (text : List Char) :
    cutComment previous text <+: text := by
  fun_induction cutComment previous text with
  | case1 rest inductionHypothesis =>
      exact (List.prefix_cons_inj '/').mpr ((List.prefix_cons_inj '/').mpr inductionHypothesis)
  | case2 => exact List.nil_prefix
  | case3 _ character rest _ inductionHypothesis =>
      exact (List.prefix_cons_inj character).mpr inductionHypothesis
  | case4 => exact List.nil_prefix

/-- A line without two slashes in a row has no comment. -/
theorem cutComment_eq_self
    {text : List Char}
    (noPair : ¬['/', '/'] <:+: text)
    (previous : Option Char) :
    cutComment previous text = text := by
  fun_induction cutComment previous text with
  | case1 rest => exact absurd ⟨[], rest, rfl⟩ noPair
  | case2 _ rest => exact absurd ⟨[], rest, rfl⟩ noPair
  | case3 _ character rest _ inductionHypothesis =>
      rw [inductionHypothesis fun inside => noPair (inside.trans (List.suffix_cons _ _).isInfix)]
  | case4 => rfl

/-- What is kept has no comment any more. -/
theorem cutComment_cutComment
    (previous : Option Char)
    (text : List Char) :
    cutComment previous (cutComment previous text) = cutComment previous text := by
  fun_induction cutComment previous text with
  | case1 rest inductionHypothesis =>
      rw [cutComment, if_pos rfl, inductionHypothesis]
  | case2 => rfl
  | case3 previous character rest startsNot inductionHypothesis =>
      rw [cutComment_cons, inductionHypothesis]
      intro starts
      -- What is kept of the rest is its start, so the two slashes would stand in the line.
      have inLine := starts.trans
        ((List.prefix_cons_inj character).mpr (prefix_of_cutComment (some character) rest))
      obtain ⟨after, whole⟩ := inLine
      obtain ⟨isSlash, isRest⟩ := List.cons.inj whole
      exact startsNot after isSlash.symm isRest.symm
  | case4 => rfl

/-! ## Where a line is cut -/

section Cut

variable {before front text rest kept : List Char}

/--
What is kept of a text that stands behind another one on its line.  Two slashes are looked for from
the left: directly behind a colon they are kept, and the search goes on behind them; otherwise they
are cut off with all that follows.
-/
inductive IsKept : List Char → List Char → List Char → Prop where
  | whole {before text : List Char} :
      ¬['/', '/'] <:+: text → IsKept before text text
  | comment {before front rest : List Char} :
      Text.OccursFirstAt ['/', '/'] (front ++ '/' :: '/' :: rest) front.length →
      (before ++ front).getLast? ≠ some ':' →
      IsKept before (front ++ '/' :: '/' :: rest) front
  | address {before front rest kept : List Char} :
      Text.OccursFirstAt ['/', '/'] (front ++ '/' :: '/' :: rest) front.length →
      (before ++ front).getLast? = some ':' →
      IsKept (before ++ front ++ ['/', '/']) rest kept →
      IsKept before (front ++ '/' :: '/' :: rest) (front ++ '/' :: '/' :: kept)

/-- The first two slashes of a line are kept behind a colon only. -/
theorem cutComment_of_first
    (first : Text.OccursFirstAt ['/', '/'] (front ++ '/' :: '/' :: rest) front.length)
    (before : List Char) :
    cutComment before.getLast? (front ++ '/' :: '/' :: rest) =
      front ++ if (before ++ front).getLast? = some ':' then
        '/' :: '/' :: cutComment (before ++ front ++ ['/', '/']).getLast? rest else [] := by
  have last : (before ++ front ++ ['/', '/']).getLast? = some '/' := by simp
  rw [cutComment_append_of_first first.notBefore, ← List.getLast?_append, cutComment, last]

/-- A text with two slashes is divided by the first of them. -/
theorem exists_first_of_infix
    (inside : ['/', '/'] <:+: text) :
    ∃ front rest, text = front ++ '/' :: '/' :: rest ∧
      Text.OccursFirstAt ['/', '/'] text front.length := by
  obtain ⟨place, found⟩ := Option.isSome_iff_exists.mp (Text.occursIn_iff.mpr inside)
  have first := Text.find?_eq_some_iff.mp found
  obtain ⟨rest, behind⟩ := first.here
  have short : place ≤ text.length := (Nat.le_add_right _ _).trans first.add_length_le
  refine ⟨text.take place, rest, ?_, ?_⟩
  · calc text = text.take place ++ text.drop place := (List.take_append_drop place text).symm
      _ = text.take place ++ '/' :: '/' :: rest := by rw [← behind]; rfl
  · rwa [List.length_take, Nat.min_eq_left short]

theorem isKept_cutComment (before text : List Char) :
    IsKept before text (cutComment before.getLast? text) := by
  by_cases inside : ['/', '/'] <:+: text
  · obtain ⟨front, rest, isSplit, first⟩ := exists_first_of_infix inside
    have shorter : rest.length < text.length := by
      rw [isSplit, List.length_append, List.length_cons, List.length_cons]
      omega
    rw [isSplit] at first ⊢
    rw [cutComment_of_first first]
    split
    · rename_i isColon
      exact .address first isColon (isKept_cutComment _ rest)
    · rename_i noColon
      rw [List.append_nil]
      exact .comment first noColon
  · rw [cutComment_eq_self inside]
    exact .whole inside
termination_by text.length

/-- What is kept of a text is what cutting off its comment leaves, and nothing else. -/
theorem isKept_iff : IsKept before text kept ↔ kept = cutComment before.getLast? text := by
  constructor
  · intro isKept
    induction isKept with
    | whole noPair => rw [cutComment_eq_self noPair]
    | comment first noColon => rw [cutComment_of_first first, if_neg noColon, List.append_nil]
    | address first isColon _ inductionHypothesis =>
        rw [cutComment_of_first first, if_pos isColon, inductionHypothesis]
  · rintro rfl
    exact isKept_cutComment before text

/-- What is left of a line without its comment. -/
structure IsCutTo (line kept : List Char) : Prop where
  /-- It is a start of the line. -/
  isStart : kept <+: line
  /-- A line without two slashes stays. -/
  whole : ¬['/', '/'] <:+: line → kept = line
  /-- It ends at the first two slashes that the search finds without a colon in front, if any, and
  nowhere else. -/
  isKept_iff : ∀ other, IsKept [] line other ↔ other = kept

theorem isCutTo_cutComment (line : List Char) : IsCutTo line (cutComment none line) where
  isStart := prefix_of_cutComment none line
  whole noPair := cutComment_eq_self noPair none
  isKept_iff _ := isKept_iff

end Cut

/-! ## Texts without comments -/

/-- A text without two slashes in a row has no comments. -/
theorem stripCommentList_eq_self
    {text : List Char}
    (noPair : ¬['/', '/'] <:+: text) :
    stripCommentList text = text := by
  have kept : (text.splitOn '\n').map (cutComment none) = text.splitOn '\n' := by
    refine (List.map_congr_left fun line isLine => ?_).trans (List.map_id _)
    refine cutComment_eq_self (fun inside => noPair ?_) none
    exact inside.trans (Text.infix_of_mem_splitOn isLine)
  rw [stripCommentList, kept]
  exact List.intercalate_splitOn '\n'

/-- The comments of joined lines are those of the lines. -/
theorem stripCommentList_intercalate
    {lines : List (List Char)}
    (oneLine : ∀ line ∈ lines, '\n' ∉ line)
    (nonempty : lines ≠ []) :
    stripCommentList (['\n'].intercalate lines) =
      ['\n'].intercalate (lines.map (cutComment none)) := by
  rw [stripCommentList, List.splitOn_intercalate '\n' oneLine nonempty]

/-- The lines of a text without comments are those of the text, each without its comment. -/
theorem splitOn_stripCommentList (text : List Char) :
    (stripCommentList text).splitOn '\n' = (text.splitOn '\n').map (cutComment none) := by
  have oneLine : ∀ line ∈ (text.splitOn '\n').map (cutComment none), '\n' ∉ line := by
    intro kept isKept among
    obtain ⟨line, isLine, rfl⟩ := List.mem_map.mp isKept
    exact Text.not_mem_of_mem_splitOn isLine ((prefix_of_cutComment none line).subset among)
  exact List.splitOn_intercalate '\n' oneLine (by simp [List.splitOn_ne_nil])

/-- A text without comments has no more of them. -/
theorem stripCommentList_stripCommentList (text : List Char) :
    stripCommentList (stripCommentList text) = stripCommentList text := by
  rw [stripCommentList, splitOn_stripCommentList, List.map_map]
  refine congrArg _ (List.map_congr_left fun line _ => ?_)
  exact cutComment_cutComment none line

/-- The text that is declared by an expression in a document: it has no comment and no end blank. -/
def declaredText (expression : String) : String :=
  .ofList (Text.trimEndWhere Text.isBlank (cutComment none expression.toList))

/-- A trimmed expression without a comment is declared as it is. -/
theorem declaredText_eq_self
    {expression : String}
    (trimmed : Text.trim expression = expression)
    (noComment : cutComment none expression.toList = expression.toList) :
    declaredText expression = expression := by
  have last := (Text.ends_of_trim_eq_self trimmed).2
  rw [declaredText, noComment, Text.trimEndWhere_eq_self last, String.ofList_toList]

end Document
end TemplatedMarkup
