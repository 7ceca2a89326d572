import Mathlib
import TemplatedMarkup.Proofs.Text.Occurrence
import TemplatedMarkup.Text.Case
import TemplatedMarkup.Text.Quoted
import TemplatedMarkup.Text.Trim

/-!
# Sizes of texts

How many bytes of UTF-8 a text takes after its parts are joined, its occurrences replaced, its ends
trimmed, its case changed or the text quoted, and how many its pieces, words and lines take.
Joining and replacing are exact; a change of case makes a text up to three times as large, because
a character of two bytes may have a form of six, and quoting makes it up to twice as large.
-/

namespace TemplatedMarkup
namespace Text

open String (utf8Len utf8Len_append utf8Len_cons utf8Len_reverse)

/-- The size of a string is that of its characters. -/
theorem utf8Len_toList (text : String) : utf8Len text.toList = text.utf8ByteSize := by
  rw [← String.utf8ByteSize_ofList, String.ofList_toList]

/-- A text takes a byte for each character at least. -/
theorem length_le_utf8Len (text : List Char) : text.length ≤ utf8Len text := by
  induction text with
  | nil => simp
  | cons character text inductionHypothesis =>
      have positive := character.utf8Size_pos
      rw [List.length_cons, utf8Len_cons]
      omega

/-- The size of a character repeated. -/
theorem utf8Len_replicate (count : Nat) (character : Char) :
    utf8Len (List.replicate count character) = count * character.utf8Size := by
  induction count with
  | zero => simp
  | succ count inductionHypothesis =>
      rw [List.replicate_succ, utf8Len_cons, inductionHypothesis, Nat.succ_mul]

/-! ## Joining and replacing -/

/-- The size of a joined text: that of its parts, and of a separator between neighbours. -/
theorem utf8Len_intercalate (separator : List Char) (parts : List (List Char)) :
    utf8Len (separator.intercalate parts) =
      (parts.map utf8Len).sum + (parts.length - 1) * utf8Len separator := by
  induction parts with
  | nil => simp
  | cons part parts inductionHypothesis =>
      cases parts with
      | nil => simp
      | cons next parts =>
          rw [List.intercalate_cons_cons, utf8Len_append, utf8Len_append, inductionHypothesis]
          simp only [List.map_cons, List.sum_cons, List.length_cons, Nat.add_sub_cancel]
          ring

/-- Replacing takes away the size of all occurrences and adds that of as many replacements. -/
theorem utf8Len_replace (pattern replacement text : List Char) :
    utf8Len (replace pattern replacement text) + occurrences pattern text * utf8Len pattern =
      utf8Len text + occurrences pattern text * utf8Len replacement := by
  unfold replace occurrences
  split
  · rename_i isEmpty
    rw [List.isEmpty_iff.mp isEmpty]
    induction text with
    | nil => simp
    | cons character text inductionHypothesis =>
        simp only [List.flatMap_cons, utf8Len_append, utf8Len_cons, String.utf8Len_nil,
          List.length_cons, Nat.mul_zero, Nat.add_zero] at inductionHypothesis ⊢
        rw [Nat.add_mul (text.length + 1), Nat.one_mul]
        omega
  · rename_i notEmpty
    have nonempty : pattern ≠ [] := fun isEmpty => notEmpty (List.isEmpty_iff.mpr isEmpty)
    have whole := congrArg utf8Len (intercalate_pieces nonempty text)
    rw [utf8Len_intercalate] at whole ⊢
    rw [← whole]
    ring

/-- The occurrences of a pattern together are no larger than the text. -/
theorem occurrences_mul_utf8Len_le (pattern text : List Char) :
    occurrences pattern text * utf8Len pattern ≤ utf8Len text := by
  unfold occurrences
  split
  · rename_i isEmpty
    simp [List.isEmpty_iff.mp isEmpty]
  · rename_i notEmpty
    have whole := congrArg utf8Len (intercalate_pieces (by simpa using notEmpty) text)
    rw [utf8Len_intercalate] at whole
    omega

/-! ## Cutting -/

/-- The parts of a text together take the bytes of the text that they make up. -/
theorem sum_utf8Len (parts : List (List Char)) :
    (parts.map utf8Len).sum = utf8Len parts.flatten := by
  induction parts with
  | nil => rfl
  | cons part parts inductionHypothesis =>
      rw [List.map_cons, List.sum_cons, List.flatten_cons, utf8Len_append, inductionHypothesis]

/-- The pieces between the occurrences of a pattern are no larger than the text. -/
theorem sum_utf8Len_pieces_le
    {pattern : List Char}
    (nonempty : pattern ≠ [])
    (text : List Char) :
    ((pieces pattern text).map utf8Len).sum ≤ utf8Len text := by
  have whole := congrArg utf8Len (intercalate_pieces nonempty text)
  rw [utf8Len_intercalate] at whole
  omega

/-- What is between separators is a part of the text. -/
theorem flatten_splitOnP_sublist (separates : Char → Bool) (text : List Char) :
    (text.splitOnP separates).flatten.Sublist text := by
  induction text with
  | nil => simp
  | cons character text inductionHypothesis =>
      rw [List.splitOnP_cons_eq_if_modifyHead]
      split
      · exact inductionHypothesis.cons character
      · cases pieces : text.splitOnP separates with
        | nil => exact absurd pieces (List.splitOnP_ne_nil _ _)
        | cons piece others =>
            rw [pieces] at inductionHypothesis
            exact inductionHypothesis.cons_cons character

/-- The words of a text are no larger than the text. -/
theorem sum_utf8Len_words_le (text : List Char) :
    ((words text).map utf8Len).sum ≤ utf8Len text := by
  rw [sum_utf8Len]
  refine String.utf8Len_le_of_sublist (.trans ?_ (flatten_splitOnP_sublist isBlank text))
  exact List.filter_sublist.flatten

theorem dropCarriageReturn_sublist (line : List Char) :
    (dropCarriageReturn line).Sublist line := by
  unfold dropCarriageReturn
  split
  · exact List.dropLast_sublist line
  · exact .refl line

/-- The lines of a text are no larger than the text. -/
theorem sum_utf8Len_lineLists_le (text : List Char) :
    ((lineLists text).map utf8Len).sum ≤ utf8Len text := by
  rw [sum_utf8Len]
  refine String.utf8Len_le_of_sublist (.trans ?_ (flatten_splitOnP_sublist (· == '\n') text))
  change (lineLists text).flatten.Sublist (text.splitOn '\n').flatten
  have shortened (lines : List (List Char)) :
      (lines.map dropCarriageReturn).flatten.Sublist lines.flatten := by
    induction lines with
    | nil => exact .refl _
    | cons line lines inductionHypothesis =>
        exact (dropCarriageReturn_sublist line).append inductionHypothesis
  rw [lineLists]
  rcases List.eq_nil_or_concat (text.splitOn '\n') with empty | ⟨front, last, isFront⟩
  · simp [empty]
  · rw [isFront, List.concat_eq_append, List.dropLast_concat, List.getLast?_concat,
      List.flatten_append, List.flatten_append]
    exact (shortened front).append List.filter_sublist.flatten

/-! ## Trimming -/

/-- Trimming the end makes no text larger. -/
theorem utf8Len_trimEndWhere_le (drops : Char → Bool) (text : List Char) :
    utf8Len (trimEndWhere drops text) ≤ utf8Len text := by
  rw [trimEndWhere, utf8Len_reverse, ← utf8Len_reverse text]
  exact String.utf8Len_le_of_sublist (List.dropWhile_sublist drops)

/-- Trimming makes no text larger. -/
theorem utf8Len_trimWhere_le (drops : Char → Bool) (text : List Char) :
    utf8Len (trimWhere drops text) ≤ utf8Len text :=
  (utf8Len_trimEndWhere_le drops _).trans
    (String.utf8Len_le_of_sublist (List.dropWhile_sublist drops))

/-! ## Quoting -/

/-- An escape takes at most twice the bytes of the character that it stands for. -/
theorem utf8Len_quoteCharacter_le
    {mark : Char}
    (narrow : mark.utf8Size = 1)
    (character : Char) :
    utf8Len (quoteCharacter mark character) ≤ 2 * character.utf8Size := by
  have positive := character.utf8Size_pos
  unfold quoteCharacter
  split
  · rename_i isBackslash
    subst isBackslash
    decide
  · split
    · rename_i isLineFeed
      subst isLineFeed
      decide
    · split
      · rename_i isTab
        subst isTab
        decide
      · split
        · rename_i isMark
          subst isMark
          rw [utf8Len_cons, utf8Len_cons, String.utf8Len_nil, narrow]
          decide
        · rw [utf8Len_cons, String.utf8Len_nil]
          omega

theorem utf8Len_flatMap_quoteCharacter_le
    {mark : Char}
    (narrow : mark.utf8Size = 1)
    (text : List Char) :
    utf8Len (text.flatMap (quoteCharacter mark)) ≤ 2 * utf8Len text := by
  induction text with
  | nil => simp
  | cons character text inductionHypothesis =>
      have first := utf8Len_quoteCharacter_le narrow character
      rw [List.flatMap_cons, utf8Len_append, utf8Len_cons]
      omega

/-- A quoted text takes at most twice the bytes of the text, and one more for each mark. -/
theorem utf8Len_quoted_le (text : List Char) : utf8Len (quoted text) ≤ 2 * utf8Len text + 2 := by
  have narrow : (quoteMark text).utf8Size = 1 := by
    unfold quoteMark
    split <;> decide
  have between := utf8Len_flatMap_quoteCharacter_le narrow text
  rw [quoted, List.cons_append, utf8Len_cons, utf8Len_append, utf8Len_cons, String.utf8Len_nil,
    narrow]
  omega

/-! ## Letter case -/

/-- The case forms of a character are at most a number of times as large as it. -/
structure GrowsBy (factor : Nat) (character : Char) : Prop where
  /-- The upper case form. -/
  upper : utf8Len (upperForm character) ≤ factor * character.utf8Size
  /-- The lower case form. -/
  lower : utf8Len (lowerForm character) ≤ factor * character.utf8Size

/-- A character of ASCII takes one byte. -/
theorem utf8Size_of_ascii
    {character : Char}
    (ascii : character.toNat < 128) :
    character.utf8Size = 1 := by
  rw [Char.utf8Size_eq_one_iff, UInt32.le_iff_toNat_le]
  exact Nat.le_of_lt_succ ascii

/-- A text of ASCII takes one byte for each character. -/
theorem utf8Len_of_ascii
    {text : List Char}
    (ascii : ∀ character ∈ text, character.toNat < 128) :
    utf8Len text = text.length := by
  induction text with
  | nil => rfl
  | cons character text inductionHypothesis =>
      rw [List.forall_mem_cons] at ascii
      rw [utf8Len_cons, inductionHypothesis ascii.2, utf8Size_of_ascii ascii.1, List.length_cons]

/-- A character beyond ASCII takes two bytes at least. -/
theorem two_le_utf8Size
    {character : Char}
    (beyond : 128 ≤ character.toNat) :
    2 ≤ character.utf8Size := by
  have positive := character.utf8Size_pos
  have several : character.utf8Size ≠ 1 := by
    rw [Ne, Char.utf8Size_eq_one_iff, UInt32.le_iff_toNat_le]
    exact Nat.not_le_of_lt beyond
  omega

/-- The case form of a character takes six bytes at most. -/
theorem utf8Len_caseForm_le
    {expansions : List (Nat × List Nat)}
    {runs : List CaseRun}
    (small : expansions.all (fun entry => utf8Len (entry.2.map Char.ofNat) ≤ 6) = true)
    (character : Char) :
    utf8Len (caseForm expansions runs character) ≤ 6 := by
  unfold caseForm
  split
  · rename_i codes found
    obtain ⟨before, after, isSplit, -⟩ := List.lookup_eq_some_iff.mp found
    simpa using List.all_eq_true.mp small (character.toNat, codes) (by simp [isSplit])
  · split
    all_goals
      rw [utf8Len_cons, String.utf8Len_nil, Nat.zero_add]
      exact (Char.utf8Size_le_four _).trans (by decide)

theorem growsBy_one
    {character : Char}
    (ascii : character.toNat < 128) :
    GrowsBy 1 character := by
  have upper : ∀ code < 128, (Char.ofNat code).toUpper.utf8Size = 1 := by decide
  have lower : ∀ code < 128, (Char.ofNat code).toLower.utf8Size = 1 := by decide
  have isUpper := upper character.toNat ascii
  have isLower := lower character.toNat ascii
  rw [Char.ofNat_toNat] at isUpper isLower
  constructor
  · simp [upperForm, ascii, isUpper, utf8Size_of_ascii ascii]
  · simp [lowerForm, ascii, isLower, utf8Size_of_ascii ascii]

/-- The case forms of a character are at most three times as large as it. -/
theorem growsBy_three (character : Char) : GrowsBy 3 character := by
  by_cases ascii : character.toNat < 128
  · have one := growsBy_one ascii
    exact ⟨one.upper.trans (by omega), one.lower.trans (by omega)⟩
  · have two := two_le_utf8Size (Nat.le_of_not_lt ascii)
    constructor
    · rw [upperForm, if_neg ascii]
      exact (utf8Len_caseForm_le (by decide +kernel) character).trans (by omega)
    · rw [lowerForm, if_neg ascii]
      exact (utf8Len_caseForm_le (by decide +kernel) character).trans (by omega)

section Growth

variable
  {factor : Nat}
  {text : List Char}
  (positive : 0 < factor)
  (grows : ∀ character ∈ text, GrowsBy factor character)

include grows

/-- A text grows in upper case as its characters do. -/
theorem utf8Len_upper_le : utf8Len (upper text) ≤ factor * utf8Len text := by
  induction text with
  | nil => simp [upper]
  | cons character text inductionHypothesis =>
      rw [List.forall_mem_cons] at grows
      have rest := inductionHypothesis grows.2
      have first := grows.1.upper
      simp only [upper, List.flatMap_cons, utf8Len_append, utf8Len_cons, Nat.mul_add] at rest ⊢
      omega

include positive

/-- The rest of a text grows in lower case as its characters do. -/
theorem utf8Len_lowerFrom_le (before done : List Char) :
    utf8Len (lowerFrom before done text) ≤ utf8Len done + factor * utf8Len text := by
  induction text generalizing before done with
  | nil => simp [lowerFrom]
  | cons character text inductionHypothesis =>
      rw [List.forall_mem_cons] at grows
      have form : utf8Len (if character = 'Σ' then [lowerSigma before text]
          else lowerForm character) ≤ factor * character.utf8Size := by
        split
        · rename_i isSigma
          subst isSigma
          have two : utf8Len [lowerSigma before text] = 2 := by
            rw [lowerSigma]
            split <;> decide
          rw [two, show Char.utf8Size 'Σ' = 2 by decide]
          omega
        · exact grows.1.lower
      rw [lowerFrom]
      refine (inductionHypothesis grows.2 _ _).trans ?_
      rw [utf8Len_append, utf8Len_reverse, utf8Len_cons, Nat.mul_add]
      omega

/-- A text grows in lower case as its characters do. -/
theorem utf8Len_lower_le : utf8Len (lower text) ≤ factor * utf8Len text := by
  simpa [lower] using utf8Len_lowerFrom_le positive grows [] []

/-- A capitalized text grows as its characters do. -/
theorem utf8Len_capitalize_le : utf8Len (capitalize text) ≤ factor * utf8Len text := by
  cases text with
  | nil => simp [capitalize]
  | cons first rest =>
      rw [List.forall_mem_cons] at grows
      have lowered := utf8Len_lower_le positive grows.2
      have raised := grows.1.upper
      rw [capitalize, utf8Len_append, utf8Len_cons, Nat.mul_add]
      omega

/-- The rest of a text grows in title case as its characters do. -/
theorem utf8Len_titleFrom_le (afterLetter : Bool) (done : List Char) :
    utf8Len (titleFrom afterLetter done text) ≤ utf8Len done + factor * utf8Len text := by
  induction text generalizing afterLetter done with
  | nil => simp [titleFrom]
  | cons character text inductionHypothesis =>
      rw [List.forall_mem_cons] at grows
      have kept : character.utf8Size ≤ factor * character.utf8Size :=
        Nat.le_mul_of_pos_left _ positive
      have form : utf8Len (if afterLetter then lowerForm character else upperForm character) ≤
          factor * character.utf8Size := by
        split
        · exact grows.1.lower
        · exact grows.1.upper
      unfold titleFrom
      split
      all_goals
        refine (inductionHypothesis grows.2 _ _).trans ?_
        simp only [utf8Len_append, utf8Len_reverse, utf8Len_cons, Nat.mul_add]
        omega

/-- A text grows in title case as its characters do. -/
theorem utf8Len_title_le : utf8Len (title text) ≤ factor * utf8Len text := by
  simpa [title] using utf8Len_titleFrom_le positive grows false []

end Growth

end Text
end TemplatedMarkup
