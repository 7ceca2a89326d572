import TemplatedMarkup.Proofs.Outcome
import TemplatedMarkup.Sorting.Merge

/-!
# Insertion and merging rearrange

Whatever a comparison answers, inserting a value adds it and nothing else, and a merge consists of
the values of both lists.
-/

namespace TemplatedMarkup
namespace Sorting

variable
  {Failure Item : Type}
  {precedes takesRight : Comparison Failure Item}

/-! ## Insertion -/

/-- An inserted value is added to the list, somewhere. -/
theorem gives_insertDescending
    (value : Item)
    (descending : List Item) :
    Gives (·.Perm (value :: descending)) (insertDescending precedes value descending) := by
  induction descending with
  | nil => exact .ok (.refl _)
  | cons greatest others inductionHypothesis =>
      refine (Gives.any _).bind fun isBehind _ => ?_
      split
      · refine inductionHypothesis.bind fun inserted rearranged => .ok ?_
        exact (rearranged.cons greatest).trans (.swap value greatest others)
      · exact .ok (.refl _)

/-- Inserted values are added to the list. -/
theorem gives_insertAll (descending values : List Item) :
    Gives (·.Perm (values ++ descending)) (insertAll precedes descending values) := by
  induction values generalizing descending with
  | nil => exact .ok (.refl _)
  | cons value values inductionHypothesis =>
      rw [insertAll, List.foldlM_cons]
      refine (gives_insertDescending value descending).bind fun inserted added => ?_
      refine (inductionHypothesis inserted).mono fun result rearranged => ?_
      exact (rearranged.trans (added.append_left values)).trans List.perm_middle

/-- Sorting by insertion rearranges a list. -/
theorem gives_sortByInsertion (values : List Item) :
    Gives (·.Perm values) (sortByInsertion precedes values) := by
  refine (gives_insertAll [] values).bind fun sorted rearranged => .ok ?_
  rw [List.append_nil] at rearranged
  exact sorted.reverse_perm.trans rearranged

/-- Insertion fails only as the comparison does. -/
theorem fails_sortByInsertion
    {IsCause : Failure → Prop}
    (comparisonFails : ∀ left right, FailsWith IsCause (precedes left right))
    (values : List Item) :
    FailsWith IsCause (sortByInsertion precedes values) := by
  have fails_insertDescending (value : Item) (descending : List Item) :
      FailsWith IsCause (insertDescending precedes value descending) := by
    induction descending with
    | nil => exact .ok _
    | cons greatest others inductionHypothesis =>
        refine (comparisonFails value greatest).bind fun isBehind _ => ?_
        split
        · exact inductionHypothesis.bind fun inserted _ => .ok _
        · exact .ok _
  exact (FailsWith.foldlM (fun value _ sorted => fails_insertDescending value sorted) []).bind
    fun sorted _ => .ok _

/-! ## Merging from one end -/

/-- A merge places the values of both lists. -/
theorem gives_mergeOnto (placed left right : List Item) :
    Gives (·.Perm (left ++ right ++ placed)) (mergeOnto takesRight placed left right) := by
  induction placed, left, right using mergeOnto.induct with
  | case1 placed right =>
      rw [mergeOnto]
      exact .ok (right.reverse_perm.append_right placed)
  | case2 placed left nonempty =>
      rw [mergeOnto, List.append_nil]
      · exact .ok (left.reverse_perm.append_right placed)
      · exact nonempty
  | case3 placed leftHead left rightHead right takenRight takenLeft =>
      rw [mergeOnto]
      refine (Gives.any _).bind fun takes _ => ?_
      split
      · refine takenRight.mono fun merged rearranged => rearranged.trans ?_
        simp only [List.append_assoc]
        exact (List.perm_middle.append_left (leftHead :: left)).trans (by simp)
      · exact takenLeft.mono fun merged rearranged => rearranged.trans List.perm_middle

/-- A merge from the front rearranges both lists. -/
theorem gives_mergeFromFront (left right : List Item) :
    Gives (·.Perm (left ++ right)) (mergeFromFront precedes left right) := by
  refine (gives_mergeOnto [] left right).bind fun merged rearranged => .ok ?_
  rw [List.append_nil] at rearranged
  exact merged.reverse_perm.trans rearranged

/-- A merge from the back rearranges both lists. -/
theorem gives_mergeFromBack (left right : List Item) :
    Gives (·.Perm (left ++ right)) (mergeFromBack precedes left right) := by
  refine (gives_mergeOnto [] left.reverse right.reverse).mono fun merged rearranged => ?_
  rw [List.append_nil] at rearranged
  exact rearranged.trans (left.reverse_perm.append right.reverse_perm)

/-- A merge rearranges both lists. -/
theorem gives_merge (left right : List Item) :
    Gives (·.Perm (left ++ right)) (merge precedes left right) := by
  unfold merge
  split
  · exact gives_mergeFromFront left right
  · exact gives_mergeFromBack left right

/-! ## Merging from both ends -/

/-- An end of a merge has placed what it has passed of two lists. -/
structure MergeEnd.Splits
    (reached : MergeEnd Item)
    (left right passedLeft passedRight : List Item) : Prop where
  /-- What is passed and what is left make the left list. -/
  left_eq : passedLeft ++ reached.left = left
  /-- What is passed and what is left make the right list. -/
  right_eq : passedRight ++ reached.right = right
  /-- What is placed is what is passed. -/
  placed : reached.placed.Perm (passedLeft ++ passedRight)

/-- An end of a merge has placed what it has passed of two lists, wherever it stands. -/
def MergeEnd.IsEndOf
    (reached : MergeEnd Item)
    (left right : List Item) : Prop :=
  ∃ passedLeft passedRight, reached.Splits left right passedLeft passedRight

namespace MergeEnd.IsEndOf

variable
  {left right passed : List Item}
  {head : Item}

/-- An end of a merge starts with nothing placed. -/
theorem start (left right : List Item) : IsEndOf ⟨left, right, []⟩ left right :=
  ⟨[], [], rfl, rfl, .refl _⟩

/-- An end that places the next value of the left list passes it. -/
theorem placeLeft
    {rest others placed : List Item}
    (reached : IsEndOf ⟨head :: rest, others, placed⟩ left right) :
    IsEndOf ⟨rest, others, head :: placed⟩ left right := by
  obtain ⟨passedLeft, passedRight, splits⟩ := reached
  refine ⟨passedLeft ++ [head], passedRight, ?_, splits.right_eq, ?_⟩
  · rw [List.append_assoc]
    exact splits.left_eq
  · rw [List.append_assoc]
    exact (splits.placed.cons head).trans List.perm_middle.symm

/-- An end that places the next value of the right list passes it. -/
theorem placeRight
    {rest others placed : List Item}
    (reached : IsEndOf ⟨others, head :: rest, placed⟩ left right) :
    IsEndOf ⟨others, rest, head :: placed⟩ left right := by
  obtain ⟨passedLeft, passedRight, splits⟩ := reached
  refine ⟨passedLeft, passedRight ++ [head], splits.left_eq, ?_, ?_⟩
  · rw [List.append_assoc]
    exact splits.right_eq
  · rw [← List.append_assoc]
    exact (splits.placed.cons head).trans (List.perm_append_singleton _ _).symm

/-- An end that advances still has placed what it has passed. -/
theorem gives_advance
    {reached : MergeEnd Item}
    (isEnd : reached.IsEndOf left right) :
    Gives (·.IsEndOf left right) (reached.advance takesRight) := by
  match reached with
  | ⟨[], [], placed⟩ => exact .ok isEnd
  | ⟨[], rightHead :: others, placed⟩ => exact .ok isEnd.placeRight
  | ⟨leftHead :: others, [], placed⟩ => exact .ok isEnd.placeLeft
  | ⟨leftHead :: others, rightHead :: more, placed⟩ =>
      refine (Gives.any _).bind fun takes _ => ?_
      split
      · exact .ok isEnd.placeRight
      · exact .ok isEnd.placeLeft

end MergeEnd.IsEndOf

/-- Both ends of a merge have placed what they have passed. -/
theorem gives_advanceBoth
    {left right lefts rights : List Item}
    {front back : MergeEnd Item}
    (isFront : front.IsEndOf left right)
    (isBack : back.IsEndOf lefts rights)
    (count : Nat) :
    Gives (fun ends => ends.1.IsEndOf left right ∧ ends.2.IsEndOf lefts rights)
      (advanceBoth precedes count front back) := by
  induction count generalizing front back with
  | zero => exact .ok ⟨isFront, isBack⟩
  | succ count inductionHypothesis =>
      refine isFront.gives_advance.bind fun front isFront => ?_
      refine isBack.gives_advance.bind fun back isBack => ?_
      exact inductionHypothesis isFront isBack

/-- What neither end of a merge has passed lies between them. -/
theorem append_take_append_reverse
    {values passed rest behind unpassed : List Item}
    (fromFront : passed ++ rest = values)
    (fromBack : behind ++ unpassed = values.reverse)
    (apart : values.length ≤ rest.length + unpassed.length) :
    passed ++ rest.take (rest.length + unpassed.length - values.length) ++ behind.reverse =
      values := by
  have ends : unpassed.reverse ++ behind.reverse = values := by
    rw [← List.reverse_append, fromBack, List.reverse_reverse]
  have length := congrArg List.length fromBack
  simp only [List.length_append, List.length_reverse] at length
  have isLast : behind.reverse <:+ rest := by
    refine List.suffix_of_suffix_length_le ⟨_, ends⟩ ⟨_, fromFront⟩ ?_
    rw [List.length_reverse]
    omega
  have middle : rest.length + unpassed.length - values.length =
      rest.length - behind.reverse.length := by
    rw [List.length_reverse]
    omega
  rw [middle, List.append_assoc, List.suffix_iff_eq_append.mp isLast, fromFront]

/-- A merge from both ends rearranges both lists. -/
theorem gives_mergeFromEnds
    [HasDisorder Failure]
    (left right : List Item) :
    Gives (·.Perm (left ++ right)) (mergeFromEnds precedes left right) := by
  refine (gives_advanceBoth (.start left right) (.start left.reverse right.reverse) _).bind ?_
  rintro ⟨front, back⟩ ⟨⟨passedLeft, passedRight, isFront⟩, ⟨behindLeft, behindRight, isBack⟩⟩
  simp only
  split
  · rename_i apart
    have wholeLeft := append_take_append_reverse isFront.left_eq isBack.left_eq apart.1
    have wholeRight := append_take_append_reverse isFront.right_eq isBack.right_eq apart.2
    refine .ok ?_
    classical
    -- Each value is as often in the parts of both lists as it is placed at the ends and between.
    rw [List.perm_iff_count]
    intro value
    have inFront := isFront.placed.count_eq value
    have inBack := isBack.placed.count_eq value
    have inLeft := congrArg (List.count value) wholeLeft
    have inRight := congrArg (List.count value) wholeRight
    simp only [List.count_append, List.count_reverse] at inFront inBack inLeft inRight ⊢
    omega
  · exact .error _

end Sorting
end TemplatedMarkup
