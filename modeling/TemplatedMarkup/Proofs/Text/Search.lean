import Mathlib.Data.List.Infix
import TemplatedMarkup.Text.Search

/-!
# Found text

A text is cut around the first occurrence of a pattern, so what stands before it is the longest
start without the pattern.
-/

namespace TemplatedMarkup
namespace Text

/-- A text without the first character of a mark is what stands before the mark. -/
theorem cutAround?_of_not_mem
    {barrier : Char → Bool}
    {first : Char}
    {text : List Char}
    (absent : first ∉ text)
    (passes : ∀ character ∈ text, barrier character = false)
    (others rest : List Char) :
    cutAround? barrier (first :: others) (text ++ (first :: others) ++ rest) =
      some (text, rest) := by
  induction text with
  | nil => simp [cutAround?]
  | cons character text inductionHypothesis =>
      rw [List.mem_cons, not_or] at absent
      rw [List.forall_mem_cons] at passes
      have notHere : ¬(first :: others).isPrefixOf
          (character :: (text ++ (first :: others) ++ rest)) = true := fun starts =>
        absent.1 (List.cons_prefix_cons.mp (List.isPrefixOf_iff_prefix.mp starts)).1
      rw [List.cons_append, List.cons_append, cutAround?, if_neg notHere, passes.1,
        inductionHypothesis absent.2 passes.2]
      rfl

/-- A text is cut into what stands before a pattern and what stands behind it. -/
theorem eq_append_of_cutAround?
    {barrier : Char → Bool}
    {pattern text before after : List Char}
    (found : cutAround? barrier pattern text = some (before, after)) :
    text = before ++ pattern ++ after := by
  induction text generalizing before with
  | nil => contradiction
  | cons character text inductionHypothesis =>
      rw [cutAround?] at found
      split at found
      · rename_i starts
        obtain ⟨behind, whole⟩ := List.isPrefixOf_iff_prefix.mp starts
        obtain ⟨rfl, rfl⟩ := Prod.mk.inj (Option.some.inj found)
        simp [← whole]
      · split at found
        · contradiction
        · obtain ⟨⟨inner, behind⟩, searched, same⟩ := Option.map_eq_some_iff.mp found
          obtain ⟨rfl, rfl⟩ := Prod.mk.inj same
          rw [inductionHypothesis searched]
          rfl

/-- A text is cut where the pattern occurs first: it does not begin any earlier. -/
theorem not_infix_append_of_cutAround?
    {barrier : Char → Bool}
    {pattern text before after : List Char}
    (nonempty : pattern ≠ [])
    (found : cutAround? barrier pattern text = some (before, after)) :
    ¬pattern <:+: before ++ pattern.dropLast := by
  have shorter : pattern.dropLast.length < pattern.length := by
    have positive := List.length_pos_iff.mpr nonempty
    rw [List.length_dropLast]
    omega
  induction text generalizing before with
  | nil => contradiction
  | cons character text inductionHypothesis =>
      have whole := eq_append_of_cutAround? found
      rw [cutAround?] at found
      split at found
      · obtain ⟨rfl, -⟩ := Prod.mk.inj (Option.some.inj found)
        exact fun inside => absurd inside.length_le (by simpa using shorter)
      · rename_i startsNot
        split at found
        · contradiction
        · obtain ⟨⟨inner, behind⟩, searched, same⟩ := Option.map_eq_some_iff.mp found
          obtain ⟨rfl, rfl⟩ := Prod.mk.inj same
          rw [List.isPrefixOf_iff_prefix, whole] at startsNot
          rw [List.cons_append, List.infix_cons_iff, not_or]
          refine ⟨fun starts => startsNot (starts.trans ?_), inductionHypothesis searched⟩
          rw [← List.cons_append, List.append_assoc, List.prefix_append_right_inj]
          exact (List.dropLast_prefix pattern).trans (List.prefix_append _ _)

/-- What stands before the cut does not have the pattern. -/
theorem not_infix_of_cutAround?
    {barrier : Char → Bool}
    {pattern text before after : List Char}
    (nonempty : pattern ≠ [])
    (found : cutAround? barrier pattern text = some (before, after)) :
    ¬pattern <:+: before :=
  fun inside => not_infix_append_of_cutAround? nonempty found
    (inside.trans (List.prefix_append _ _).isInfix)

/-- A text is not cut around a pattern that does not occur. -/
theorem cutAround?_eq_none_iff
    {barrier : Char → Bool}
    {pattern text : List Char}
    (nonempty : pattern ≠ [])
    (passes : ∀ character ∈ text, barrier character = false) :
    cutAround? barrier pattern text = none ↔ ¬pattern <:+: text := by
  induction text with
  | nil => simpa [cutAround?] using nonempty
  | cons character text inductionHypothesis =>
      rw [List.forall_mem_cons] at passes
      rw [cutAround?, List.infix_cons_iff, not_or, passes.1]
      by_cases starts : pattern <+: character :: text
      · simp [starts]
      · simpa [starts] using inductionHypothesis passes.2

/-- Where a text is cut does not depend on what stands behind the pattern. -/
theorem cutAround?_append_of_eq_some
    {barrier : Char → Bool}
    {pattern text before after : List Char}
    (found : cutAround? barrier pattern text = some (before, after))
    (rest : List Char) :
    cutAround? barrier pattern (text ++ rest) = some (before, after ++ rest) := by
  induction text generalizing before with
  | nil => contradiction
  | cons character text inductionHypothesis =>
      rw [cutAround?] at found
      rw [List.cons_append, cutAround?]
      split at found
      · rename_i starts
        obtain ⟨behind, whole⟩ := List.isPrefixOf_iff_prefix.mp starts
        have startsLonger : pattern.isPrefixOf (character :: (text ++ rest)) = true := by
          rw [List.isPrefixOf_iff_prefix, ← List.cons_append, ← whole, List.append_assoc]
          exact List.prefix_append _ _
        obtain ⟨rfl, rfl⟩ := Prod.mk.inj (Option.some.inj found)
        rw [if_pos startsLonger, ← List.cons_append, ← whole]
        simp
      · rename_i startsNot
        split at found
        · contradiction
        · rename_i passes
          obtain ⟨⟨inner, behind⟩, searched, same⟩ := Option.map_eq_some_iff.mp found
          obtain ⟨rfl, rfl⟩ := Prod.mk.inj same
          have startsNotLonger : ¬pattern.isPrefixOf (character :: (text ++ rest)) = true := by
            rw [List.isPrefixOf_iff_prefix] at startsNot ⊢
            intro starts
            have shorter : pattern.length ≤ (character :: text).length := by
              rw [eq_append_of_cutAround? searched]
              simp only [List.length_cons, List.length_append]
              omega
            exact startsNot
              (List.prefix_of_prefix_length_le starts (List.prefix_append (_ :: text) _) shorter)
          rw [if_neg startsNotLonger, if_neg passes, inductionHypothesis searched]
          rfl

/-- A pattern does not start with a character that it does not have. -/
theorem not_prefix_cons
    {pattern rest : List Char}
    {next : Char}
    (nonempty : pattern ≠ [])
    (apart : next ∉ pattern) :
    ¬pattern <+: next :: rest := by
  obtain ⟨first, others, rfl⟩ := List.exists_cons_of_ne_nil nonempty
  exact fun starts => apart (by simp [(List.cons_prefix_cons.mp starts).1])

/-- What begins a text is over before a character that it does not have. -/
theorem prefix_of_prefix_append_cons
    {pattern text rest : List Char}
    {next : Char}
    (apart : next ∉ pattern)
    (starts : pattern <+: text ++ next :: rest) :
    pattern <+: text := by
  by_contra startsNot
  obtain ⟨behind, rfl⟩ :=
    (List.prefix_or_prefix_of_prefix starts (List.prefix_append _ _)).resolve_left startsNot
  rw [List.prefix_append_right_inj] at starts
  refine not_prefix_cons (fun nothing => startsNot (by simp [nothing])) ?_ starts
  exact fun among => apart (List.mem_append_right _ among)

/-- What occurs in a text occurs on one side of a character that it does not have. -/
theorem infix_append_cons_iff
    {pattern text rest : List Char}
    {next : Char}
    (apart : next ∉ pattern) :
    pattern <:+: text ++ next :: rest ↔ pattern <:+: text ∨ pattern <:+: rest := by
  constructor
  · rintro ⟨before, after, whole⟩
    rw [List.append_assoc, List.append_eq_append_iff] at whole
    rcases whole with ⟨between, rfl, starts⟩ | ⟨between, rfl, starts⟩
    · refine .inl ?_
      have isPrefix := prefix_of_prefix_append_cons apart ⟨after, starts⟩
      exact isPrefix.isInfix.trans (List.suffix_append _ _).isInfix
    · cases between with
      | nil =>
          have nothing : pattern = [] := by
            by_contra nonempty
            exact not_prefix_cons nonempty apart ⟨after, starts.symm⟩
          exact .inl (nothing ▸ List.nil_infix)
      | cons first between =>
          obtain ⟨rfl, rfl⟩ := List.cons.inj starts
          exact .inr ⟨between, after, by simp⟩
  · rintro (inText | inRest)
    · exact inText.trans (List.prefix_append _ _).isInfix
    · exact inRest.trans ((List.suffix_cons _ _).trans (List.suffix_append _ _)).isInfix

/-- A pattern that does not occur in a text occurs first behind it, if it does not begin there. -/
theorem cutAround?_append_of_eq_none
    {barrier : Char → Bool}
    {pattern text : List Char}
    {next : Char}
    (nonempty : pattern ≠ [])
    (passes : ∀ character ∈ text ++ [next], barrier character = false)
    (apart : next ∉ pattern)
    (notFound : cutAround? barrier pattern text = none)
    (rest : List Char) :
    cutAround? barrier pattern (text ++ next :: rest) =
      (cutAround? barrier pattern rest).map fun (before, after) =>
        (text ++ next :: before, after) := by
  induction text with
  | nil =>
      have startsNot : ¬pattern.isPrefixOf (next :: rest) = true := by
        rw [List.isPrefixOf_iff_prefix]
        exact not_prefix_cons nonempty apart
      rw [List.nil_append, cutAround?, if_neg startsNot, passes next (by simp)]
      rfl
  | cons character text inductionHypothesis =>
      rw [List.cons_append, List.forall_mem_cons] at passes
      have startsNotShorter : ¬pattern.isPrefixOf (character :: text) = true := fun starts => by
        simp [cutAround?, starts] at notFound
      have startsNot : ¬pattern.isPrefixOf (character :: (text ++ next :: rest)) = true := by
        rw [List.isPrefixOf_iff_prefix] at startsNotShorter ⊢
        exact fun starts => startsNotShorter (prefix_of_prefix_append_cons apart starts)
      have notFoundBehind : cutAround? barrier pattern text = none := by
        rw [cutAround?, if_neg startsNotShorter, passes.1] at notFound
        exact Option.map_eq_none_iff.mp notFound
      rw [List.cons_append, cutAround?, if_neg startsNot, passes.1,
        inductionHypothesis passes.2 notFoundBehind]
      cases cutAround? barrier pattern rest <;> rfl

/-- Two characters follow each other in a part of a text, or where two parts meet. -/
theorem infix_append_of_pair
    {first second : Char}
    {front behind : List Char}
    (inside : [first, second] <:+: front ++ behind) :
    [first, second] <:+: front ∨ [first, second] <:+: behind ∨
      front.getLast? = some first ∧ behind.head? = some second := by
  rcases List.infix_append_iff.mp inside with
    inFront | inBehind | ⟨before, after, same, ends, starts⟩
  · exact .inl inFront
  · exact .inr (.inl inBehind)
  · rcases before with _ | ⟨character, before⟩
    · rw [List.nil_append] at same
      exact .inr (.inl (same ▸ starts.isInfix))
    · obtain ⟨rfl, sameBehind⟩ := List.cons_eq_cons.mp same
      rcases before with _ | ⟨next, before⟩
      · obtain ⟨start, rfl⟩ := ends
        obtain ⟨later, rfl⟩ := starts
        obtain rfl : after = [second] := sameBehind.symm
        exact .inr (.inr ⟨by simp, rfl⟩)
      · obtain ⟨rfl, nothing⟩ := List.cons_eq_cons.mp sameBehind
        obtain ⟨rfl, -⟩ := List.nil_eq_append_iff.mp nothing
        exact .inl ends.isInfix

/-- Two characters that do not follow each other in two parts do not do so where the parts meet. -/
theorem not_infix_append_of_pair
    {first second : Char}
    {front behind : List Char}
    (notInFront : ¬[first, second] <:+: front)
    (notInBehind : ¬[first, second] <:+: behind)
    (apart : front.getLast? ≠ some first ∨ behind.head? ≠ some second) :
    ¬[first, second] <:+: front ++ behind := by
  intro inside
  rcases infix_append_of_pair inside with inFront | inBehind | ⟨isLast, isFirst⟩
  · exact notInFront inFront
  · exact notInBehind inBehind
  · exact apart.elim (· isLast) (· isFirst)

/--
A text is cut around two characters where they first follow each other; if they are the same one,
it does not end what stands before them.
-/
theorem cutAround?_append
    {first second : Char}
    {text : List Char}
    (absent : ¬[first, second] <:+: text)
    (apart : first = second → text.getLast? ≠ some first)
    (rest : List Char) :
    cutAround? (fun _ => false) [first, second] (text ++ first :: second :: rest) =
      some (text, rest) := by
  induction text with
  | nil => simp [cutAround?]
  | cons character text inductionHypothesis =>
      have absentBehind : ¬[first, second] <:+: text := fun inside =>
        absent (inside.trans (List.suffix_cons _ _).isInfix)
      have apartBehind : first = second → text.getLast? ≠ some first := by
        intro same isLast
        refine apart same ?_
        rw [List.getLast?_cons, isLast]
        rfl
      have notHere :
          ¬[first, second] <+: character :: (text ++ first :: second :: rest) := by
        intro starts
        obtain ⟨rfl, startsBehind⟩ := List.cons_prefix_cons.mp starts
        cases text with
        | nil => exact apart (List.cons_prefix_cons.mp startsBehind).1.symm rfl
        | cons next text =>
            obtain ⟨rfl, -⟩ := List.cons_prefix_cons.mp startsBehind
            exact absent ⟨[], text, rfl⟩
      rw [List.cons_append, cutAround?, if_neg (by rwa [List.isPrefixOf_iff_prefix]),
        inductionHypothesis absentBehind apartBehind]
      rfl

end Text
end TemplatedMarkup
