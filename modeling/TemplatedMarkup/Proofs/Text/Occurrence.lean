import Mathlib.Data.List.Infix
import TemplatedMarkup.Text.Search

/-!
# Occurrences of a pattern

The first occurrence of a pattern is at the least place from which on the text starts with it.
Pieces and replacements follow two equations: an occurrence at the start of a text is passed as a
whole, and any other character is passed alone.
-/

namespace TemplatedMarkup
namespace Text

/-! ## The first occurrence -/

/-- A pattern occurs at a place of a text and at none before. -/
structure OccursFirstAt (pattern text : List Char) (place : Nat) : Prop where
  /-- The text goes on with the pattern from the place. -/
  here : pattern <+: text.drop place
  /-- It does not do so from an earlier place. -/
  notBefore : ∀ earlier < place, ¬pattern <+: text.drop earlier

section First

variable
  {pattern text rest : List Char}
  {character : Char}
  {place : Nat}

theorem occursFirstAt_zero_iff :
    OccursFirstAt pattern text 0 ↔ pattern <+: text := by
  constructor
  · intro first
    exact first.here
  · intro starts
    exact ⟨starts, fun _ before => nomatch before⟩

theorem occursFirstAt_succ_iff :
    OccursFirstAt pattern (character :: rest) (place + 1) ↔
      ¬pattern <+: character :: rest ∧ OccursFirstAt pattern rest place := by
  constructor
  · rintro ⟨here, notBefore⟩
    refine ⟨notBefore 0 (Nat.succ_pos place), here, fun earlier before => ?_⟩
    exact notBefore (earlier + 1) (Nat.succ_lt_succ before)
  · rintro ⟨startsNot, here, notBefore⟩
    refine ⟨here, fun earlier before => ?_⟩
    cases earlier with
    | zero => exact startsNot
    | succ earlier => exact notBefore earlier (Nat.lt_of_succ_lt_succ before)

/-- The first place is the start exactly if the text starts with the pattern. -/
theorem OccursFirstAt.eq_zero_iff
    (first : OccursFirstAt pattern text place) :
    place = 0 ↔ pattern <+: text := by
  constructor
  · rintro rfl
    exact first.here
  · intro starts
    by_contra later
    exact first.notBefore 0 (Nat.pos_of_ne_zero later) starts

/-- An occurrence lies in the text. -/
theorem OccursFirstAt.add_length_le
    (first : OccursFirstAt pattern text place) :
    place + pattern.length ≤ text.length := by
  have short := first.here.length_le
  rw [List.length_drop] at short
  cases pattern with
  | nil =>
      simp [first.eq_zero_iff.mpr List.nil_prefix]
  | cons head tail =>
      rw [List.length_cons] at short ⊢
      omega

theorem findFrom_eq (pattern : List Char) (passed : Nat) (text : List Char) :
    findFrom pattern passed text = (find? pattern text).map (passed + ·) := by
  rw [find?]
  induction text generalizing passed with
  | nil =>
      rw [findFrom, findFrom]
      split <;> simp
  | cons character rest inductionHypothesis =>
      rw [findFrom, findFrom]
      split
      · simp
      · rw [inductionHypothesis, inductionHypothesis (0 + 1), Option.map_map]
        congr 1
        funext place
        exact (Nat.add_assoc passed 1 place).trans (by simp)

theorem find?_nil (pattern : List Char) :
    find? pattern [] = if pattern.isEmpty then some 0 else none := by
  rw [find?, findFrom]

theorem find?_cons_of_starts
    (starts : pattern <+: character :: rest) :
    find? pattern (character :: rest) = some 0 := by
  rw [find?, findFrom, if_pos (List.isPrefixOf_iff_prefix.mpr starts)]

theorem find?_cons_of_startsNot
    (startsNot : ¬pattern <+: character :: rest) :
    find? pattern (character :: rest) = (find? pattern rest).map (1 + ·) := by
  rw [find?, findFrom, if_neg (by rwa [List.isPrefixOf_iff_prefix]), findFrom_eq]

/-- A pattern is found where it occurs first. -/
theorem find?_eq_some_iff :
    find? pattern text = some place ↔ OccursFirstAt pattern text place := by
  induction text generalizing place with
  | nil =>
      rw [find?_nil]
      cases pattern with
      | nil =>
          cases place with
          | zero => simp [occursFirstAt_zero_iff]
          | succ place =>
              exact iff_of_false nofun fun first =>
                first.notBefore 0 (Nat.succ_pos place) List.nil_prefix
      | cons head tail =>
          refine iff_of_false nofun fun first => ?_
          simpa using first.here
  | cons character rest inductionHypothesis =>
      by_cases starts : pattern <+: character :: rest
      · rw [find?_cons_of_starts starts]
        cases place with
        | zero => simp [occursFirstAt_zero_iff, starts]
        | succ place => simp [occursFirstAt_succ_iff, starts]
      · rw [find?_cons_of_startsNot starts]
        cases place with
        | zero => simp [occursFirstAt_zero_iff, starts]
        | succ place =>
            rw [occursFirstAt_succ_iff, ← inductionHypothesis]
            simp [starts, Nat.add_comm 1]

/-- A pattern is found at a place if it occurs at all. -/
theorem occursIn_iff : occursIn pattern text = true ↔ pattern <:+: text := by
  rw [occursIn]
  induction text with
  | nil => simp [find?_nil]
  | cons character rest inductionHypothesis =>
      rw [List.infix_cons_iff, ← inductionHypothesis]
      by_cases starts : pattern <+: character :: rest
      · simp [find?_cons_of_starts, starts]
      · simp [find?_cons_of_startsNot, starts]

end First

/-! ## Pieces -/

section Pieces

variable
  {pattern rest : List Char}
  {character : Char}

/-- The finished pieces come first, and the piece that is started goes on in the text. -/
theorem piecesFrom_eq
    (pattern piece : List Char)
    (done : List (List Char))
    (text : List Char) :
    piecesFrom pattern piece done text =
      done.reverse ++ (pieces pattern text).modifyHead (piece.reverse ++ ·) := by
  cases text with
  | nil => simp [pieces, piecesFrom]
  | cons character rest =>
      rw [pieces, piecesFrom, piecesFrom]
      split
      · rw [piecesFrom_eq pattern [] (piece.reverse :: done), piecesFrom_eq pattern [] [[].reverse]]
        simp
      · rw [piecesFrom_eq pattern (character :: piece) done, piecesFrom_eq pattern [character] []]
        simp [List.modifyHead_modifyHead, Function.comp_def]
termination_by text.length
decreasing_by
  all_goals
    simp only [List.length_cons, List.length_drop]
    omega

@[simp] theorem pieces_nil (pattern : List Char) : pieces pattern [] = [[]] := by
  rw [pieces, piecesFrom]
  rfl

/-- An occurrence at the start of a text ends an empty piece. -/
theorem pieces_append
    (nonempty : pattern ≠ [])
    (rest : List Char) :
    pieces pattern (pattern ++ rest) = [] :: pieces pattern rest := by
  obtain ⟨first, others, rfl⟩ := List.exists_cons_of_ne_nil nonempty
  have starts : (first :: others).isPrefixOf (first :: (others ++ rest)) = true := by simp
  have behind : (others ++ rest).drop ((first :: others).length - 1) = rest := by simp
  rw [List.cons_append, pieces, piecesFrom, if_pos starts, behind, piecesFrom_eq]
  exact congrArg ([] :: ·) (congrFun List.modifyHead_id _)

/-- A character that starts no occurrence belongs to the first piece. -/
theorem pieces_cons
    (startsNot : ¬pattern <+: character :: rest) :
    pieces pattern (character :: rest) = (pieces pattern rest).modifyHead (character :: ·) := by
  rw [pieces, piecesFrom, if_neg (by rwa [List.isPrefixOf_iff_prefix]), piecesFrom_eq]
  rfl

theorem not_prefix_of_ne
    {first : Char}
    {others : List Char}
    (apart : first ≠ character) :
    ¬first :: others <+: character :: rest :=
  fun starts => apart (List.cons_prefix_cons.mp starts).1

/-- A text without the first character of the pattern belongs to the first piece. -/
theorem pieces_append_of_not_mem
    {first : Char}
    {others text : List Char}
    (absent : first ∉ text)
    (rest : List Char) :
    pieces (first :: others) (text ++ rest) =
      (pieces (first :: others) rest).modifyHead (text ++ ·) := by
  induction text with
  | nil => exact (congrFun List.modifyHead_id _).symm
  | cons character text inductionHypothesis =>
      rw [List.mem_cons, not_or] at absent
      rw [List.cons_append, pieces_cons (not_prefix_of_ne absent.1),
        inductionHypothesis absent.2, List.modifyHead_modifyHead]
      rfl

/-- Joined texts are cut apart again if none of them has the first character of the pattern. -/
theorem pieces_intercalate
    {first : Char}
    {others : List Char}
    {parts : List (List Char)}
    (nonempty : parts ≠ [])
    (absent : ∀ part ∈ parts, first ∉ part) :
    pieces (first :: others) ((first :: others).intercalate parts) = parts := by
  induction parts with
  | nil => contradiction
  | cons part parts inductionHypothesis =>
      rw [List.forall_mem_cons] at absent
      cases parts with
      | nil =>
          have whole : pieces (first :: others) (part ++ []) =
              (pieces (first :: others) []).modifyHead (part ++ ·) :=
            pieces_append_of_not_mem absent.1 []
          rw [List.append_nil, pieces_nil] at whole
          rw [List.intercalate_singleton, whole]
          simp
      | cons next parts =>
          rw [List.intercalate_cons_cons, List.append_assoc, pieces_append_of_not_mem absent.1,
            pieces_append (List.cons_ne_nil _ _),
            inductionHypothesis (List.cons_ne_nil _ _) absent.2]
          simp

/-- What stands in front of the first of joined texts stands in front of them all. -/
theorem intercalate_modifyHead
    {parts : List (List Char)}
    (nonempty : parts ≠ [])
    (separator : List Char)
    (character : Char) :
    separator.intercalate (parts.modifyHead (character :: ·)) =
      character :: separator.intercalate parts := by
  obtain ⟨part, parts, rfl⟩ := List.exists_cons_of_ne_nil nonempty
  cases parts <;> rfl

/--
Reading a text from the left, past occurrences of a pattern as a whole and past other characters
one at a time.
-/
@[elab_as_elim]
theorem scanning
    {Holds : List Char → Prop}
    (nonempty : pattern ≠ [])
    (nothing : Holds [])
    (occurrence : ∀ rest, Holds rest → Holds (pattern ++ rest))
    (other : ∀ character rest, ¬pattern <+: character :: rest → Holds rest →
      Holds (character :: rest))
    (text : List Char) :
    Holds text := by
  cases text with
  | nil => exact nothing
  | cons character rest =>
      by_cases starts : pattern <+: character :: rest
      · obtain ⟨behind, whole⟩ := starts
        rw [← whole]
        exact occurrence behind (scanning nonempty nothing occurrence other behind)
      · exact other character rest starts (scanning nonempty nothing occurrence other rest)
termination_by text.length
decreasing_by
  · have length := congrArg List.length whole
    have positive := List.length_pos_iff.mpr nonempty
    rw [List.length_append, List.length_cons] at length
    rw [List.length_cons]
    omega
  · simp

/-- There is always a piece. -/
theorem pieces_ne_nil
    (nonempty : pattern ≠ [])
    (text : List Char) :
    pieces pattern text ≠ [] := by
  induction text using scanning nonempty with
  | nothing => simp
  | occurrence rest _ =>
      rw [pieces_append nonempty]
      exact List.cons_ne_nil _ _
  | other character rest startsNot inductionHypothesis =>
      rw [pieces_cons startsNot]
      simpa [List.modifyHead_eq_nil_iff] using inductionHypothesis

/-- Pieces that are joined by the pattern around which they were cut are the text. -/
theorem intercalate_pieces
    (nonempty : pattern ≠ [])
    (text : List Char) :
    pattern.intercalate (pieces pattern text) = text := by
  induction text using scanning nonempty with
  | nothing => simp
  | occurrence rest inductionHypothesis =>
      rw [pieces_append nonempty, List.intercalate_cons_of_ne_nil (pieces_ne_nil nonempty rest),
        List.nil_append, inductionHypothesis]
  | other character rest startsNot inductionHypothesis =>
      rw [pieces_cons startsNot, intercalate_modifyHead (pieces_ne_nil nonempty rest),
        inductionHypothesis]

/-- A pattern occurs if there is something to count. -/
theorem occurrences_pos_iff {text : List Char} :
    0 < occurrences pattern text ↔ pattern <:+: text := by
  rw [occurrences]
  split
  · rename_i isEmpty
    simp [List.isEmpty_iff.mp isEmpty]
  · rename_i notEmpty
    have nonempty : pattern ≠ [] := fun isEmpty => notEmpty (List.isEmpty_iff.mpr isEmpty)
    induction text using scanning nonempty with
    | nothing => simpa using nonempty
    | occurrence rest _ =>
        have positive := List.length_pos_iff.mpr (pieces_ne_nil nonempty rest)
        rw [pieces_append nonempty]
        refine iff_of_true ?_ (List.prefix_append _ _).isInfix
        simpa using positive
    | other character rest startsNot inductionHypothesis =>
        rw [pieces_cons startsNot, List.length_modifyHead, List.infix_cons_iff]
        simpa [startsNot] using inductionHypothesis

/-- There are at most as many pieces as places between characters. -/
theorem length_pieces_le
    (nonempty : pattern ≠ [])
    (text : List Char) :
    (pieces pattern text).length ≤ text.length + 1 := by
  induction text using scanning nonempty with
  | nothing => simp
  | occurrence rest inductionHypothesis =>
      have positive := List.length_pos_iff.mpr nonempty
      rw [pieces_append nonempty, List.length_cons, List.length_append]
      omega
  | other character rest startsNot inductionHypothesis =>
      rw [pieces_cons startsNot, List.length_modifyHead, List.length_cons]
      omega

theorem occurrences_le (pattern text : List Char) :
    occurrences pattern text ≤ text.length + 1 := by
  rw [occurrences]
  split
  · exact Nat.le_refl _
  · rename_i notEmpty
    have few := length_pieces_le (by simpa using notEmpty) text
    omega

end Pieces

/-! ## Replacements -/

section Replacements

variable
  {pattern rest : List Char}
  {character : Char}

theorem replace_eq_intercalate
    (nonempty : pattern ≠ [])
    (replacement text : List Char) :
    replace pattern replacement text = replacement.intercalate (pieces pattern text) := by
  rw [replace, if_neg (by simpa using nonempty)]

@[simp] theorem replace_nil
    (nonempty : pattern ≠ [])
    (replacement : List Char) :
    replace pattern replacement [] = [] := by
  rw [replace_eq_intercalate nonempty]
  simp

/-- An occurrence at the start of a text is replaced. -/
theorem replace_append
    (nonempty : pattern ≠ [])
    (replacement rest : List Char) :
    replace pattern replacement (pattern ++ rest) =
      replacement ++ replace pattern replacement rest := by
  rw [replace_eq_intercalate nonempty, replace_eq_intercalate nonempty, pieces_append nonempty,
    List.intercalate_cons_of_ne_nil (pieces_ne_nil nonempty rest), List.nil_append]

/-- A character that starts no occurrence is kept. -/
theorem replace_cons
    (startsNot : ¬pattern <+: character :: rest)
    (replacement : List Char) :
    replace pattern replacement (character :: rest) =
      character :: replace pattern replacement rest := by
  have nonempty : pattern ≠ [] := by
    rintro rfl
    exact startsNot List.nil_prefix
  rw [replace_eq_intercalate nonempty, replace_eq_intercalate nonempty, pieces_cons startsNot,
    intercalate_modifyHead (pieces_ne_nil nonempty rest)]

/-- A text without the first character of the pattern is kept. -/
theorem replace_append_of_not_mem
    {first : Char}
    {others text : List Char}
    (absent : first ∉ text)
    (replacement rest : List Char) :
    replace (first :: others) replacement (text ++ rest) =
      text ++ replace (first :: others) replacement rest := by
  induction text with
  | nil => rfl
  | cons character text inductionHypothesis =>
      rw [List.mem_cons, not_or] at absent
      rw [List.cons_append, replace_cons (not_prefix_of_ne absent.1), inductionHypothesis absent.2]
      rfl

end Replacements

end Text
end TemplatedMarkup
