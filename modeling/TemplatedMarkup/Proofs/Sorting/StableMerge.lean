import TemplatedMarkup.Proofs.Sorting.Merge
import TemplatedMarkup.Proofs.Sorting.Order

/-!
# Insertion and merging by an order

Where the comparison orders the values, insertion keeps a list sorted and a merge of two sorted
lists is the sorted list of both, whether it goes from the front, from the back or from both ends.
The back mirrors the front: it merges the reversed lists, with their sides swapped, by the opposite
order.  The two ends of a merge do not pass each other.
-/

namespace TemplatedMarkup
namespace Sorting

variable
  {Failure Item : Type}
  {precedes : Comparison Failure Item}
  {IsAmong : Item → Prop}

namespace IsOrderAmong

variable
  {value head : Item}
  {rest : List Item}

/-- What comes before the first value of an ascending list comes before all of them. -/
theorem isBefore_of_ascends
    (order : IsOrderAmong precedes IsAmong)
    (isValue : IsAmong value)
    (among : ∀ item ∈ head :: rest, IsAmong item)
    (ascends : Ascends precedes (head :: rest))
    (isBefore : IsBefore precedes value head) :
    ∀ item ∈ head :: rest, IsBefore precedes value item := by
  rw [List.forall_mem_cons] at among ⊢
  refine ⟨isBefore, fun item isItem => ?_⟩
  exact order.isBefore_of_isBefore_of_isNotAfter isValue among.1 (among.2 item isItem) isBefore
    ((List.pairwise_cons.mp ascends).1 item isItem)

/-- What is not after the first value of an ascending list is not after any of them. -/
theorem isNotAfter_of_ascends
    (order : IsOrderAmong precedes IsAmong)
    (isValue : IsAmong value)
    (among : ∀ item ∈ head :: rest, IsAmong item)
    (ascends : Ascends precedes (head :: rest))
    (isNotAfter : IsNotAfter precedes value head) :
    ∀ item ∈ head :: rest, IsNotAfter precedes value item := by
  rw [List.forall_mem_cons] at among ⊢
  refine ⟨isNotAfter, fun item isItem => ?_⟩
  exact order.trans isValue among.1 (among.2 item isItem) isNotAfter
    ((List.pairwise_cons.mp ascends).1 item isItem)

end IsOrderAmong

/-- A value goes behind the front of an ascending list, if it is not after the rest. -/
theorem ascends_concat_append
    {value : Item}
    {front rest others : List Item}
    (valueAscends : Ascends precedes (front ++ value :: others))
    (restAscends : Ascends precedes (front ++ rest))
    (isNotAfter : ∀ item ∈ rest, IsNotAfter precedes value item) :
    Ascends precedes (front ++ [value] ++ rest) := by
  obtain ⟨-, -, frontOthers⟩ := List.pairwise_append.mp valueAscends
  obtain ⟨frontSorted, restSorted, frontRest⟩ := List.pairwise_append.mp restAscends
  rw [List.append_assoc]
  refine List.pairwise_append.mpr ⟨frontSorted, List.pairwise_cons.mpr ⟨isNotAfter, restSorted⟩, ?_⟩
  intro item isItem
  rw [List.singleton_append, List.forall_mem_cons]
  exact ⟨frontOthers item isItem value (by simp), frontRest item isItem⟩

/-! ## Insertion -/

/-- A value is inserted into a sorted list behind all values that it does not precede. -/
theorem ends_insertDescending
    (order : IsOrderAmong precedes IsAmong)
    {value : Item}
    {descending : List Item}
    (isValue : IsAmong value)
    (among : ∀ item ∈ descending, IsAmong item)
    (ascends : Ascends precedes descending.reverse) :
    Ends (ComparisonFails precedes IsAmong)
      (fun inserted => Sorts precedes (descending.reverse ++ [value]) inserted.reverse)
      (insertDescending precedes value descending) := by
  induction descending with
  | nil => exact .ok ⟨.refl _, List.pairwise_singleton _ _⟩
  | cons greatest others inductionHypothesis =>
      rw [List.forall_mem_cons] at among
      rw [List.reverse_cons] at ascends ⊢
      obtain ⟨othersAscend, -, areNotAfter⟩ := List.pairwise_append.mp ascends
      simp only [List.forall_mem_singleton] at areNotAfter
      refine (ends_comparison isValue among.1).bind fun answer answers => ?_
      cases answer with
      | true =>
          refine (inductionHypothesis among.2 othersAscend).bind fun inserted sorts => .ok ?_
          rw [List.reverse_cons]
          have moved : StablePerm precedes (others.reverse ++ [greatest] ++ [value])
              (others.reverse ++ [value] ++ [greatest]) := by
            simp only [List.append_assoc]
            exact (StablePerm.swap answers []).append_left others.reverse
          refine ⟨moved.trans (sorts.stable.append_right [greatest]), ?_⟩
          refine List.pairwise_append.mpr ⟨sorts.ascends, List.pairwise_singleton _ _, ?_⟩
          intro item isItem
          rw [List.forall_mem_singleton]
          rcases List.mem_append.mp (sorts.stable.perm.mem_iff.mpr isItem) with isOther | isNew
          · exact areNotAfter item isOther
          · obtain rfl := List.mem_singleton.mp isNew
            exact order.isNotAfter_of_isBefore isValue among.1 answers
      | false =>
          refine .ok ⟨by simpa using StablePerm.refl _, ?_⟩
          rw [List.reverse_cons, List.reverse_cons]
          refine List.pairwise_append.mpr ⟨ascends, List.pairwise_singleton _ _, ?_⟩
          intro item isItem
          rw [List.forall_mem_singleton]
          rcases List.mem_append.mp isItem with isOther | isGreatest
          · have isAmong : IsAmong item := among.2 item (List.mem_reverse.mp isOther)
            exact order.trans isAmong among.1 isValue (areNotAfter item isOther) answers
          · obtain rfl := List.mem_singleton.mp isGreatest
            exact answers

/-- Values that are inserted into a sorted list are sorted with it. -/
theorem ends_insertAll
    (order : IsOrderAmong precedes IsAmong)
    (descending values : List Item)
    (among : ∀ item ∈ descending.reverse ++ values, IsAmong item)
    (ascends : Ascends precedes descending.reverse) :
    Ends (ComparisonFails precedes IsAmong)
      (fun inserted => Sorts precedes (descending.reverse ++ values) inserted.reverse)
      (insertAll precedes descending values) := by
  induction values generalizing descending with
  | nil => exact .ok ⟨by rw [List.append_nil]; exact .refl _, ascends⟩
  | cons value values inductionHypothesis =>
      have isValue : IsAmong value := among value (by simp)
      have areAmong : ∀ item ∈ descending, IsAmong item := fun item isItem =>
        among item (by simp [isItem])
      rw [insertAll, List.foldlM_cons]
      refine (ends_insertDescending order isValue areAmong ascends).bind fun inserted sorts => ?_
      have moved : StablePerm precedes (descending.reverse ++ value :: values)
          (inserted.reverse ++ values) := by
        rw [List.append_cons]
        exact sorts.stable.append_right values
      exact (inductionHypothesis inserted (moved.among among) sorts.ascends).mono
        fun result sorts => .of_stablePerm moved sorts

/-- Insertion sorts. -/
theorem ends_sortByInsertion
    (order : IsOrderAmong precedes IsAmong)
    {values : List Item}
    (among : ∀ item ∈ values, IsAmong item) :
    Ends (ComparisonFails precedes IsAmong) (Sorts precedes values)
      (sortByInsertion precedes values) :=
  (ends_insertAll order [] values among List.Pairwise.nil).bind fun _ sorts => .ok sorts

/-! ## Merging from one end -/

/-- A merge sorts the values that it has placed and those of both lists. -/
theorem ends_mergeOnto
    (order : IsOrderAmong precedes IsAmong)
    (placed left right : List Item)
    (leftAmong : ∀ item ∈ left, IsAmong item)
    (rightAmong : ∀ item ∈ right, IsAmong item)
    (leftAscends : Ascends precedes (placed.reverse ++ left))
    (rightAscends : Ascends precedes (placed.reverse ++ right)) :
    Ends (ComparisonFails precedes IsAmong)
      (fun merged => Sorts precedes (placed.reverse ++ (left ++ right)) merged.reverse)
      (mergeOnto (rightIsSmaller precedes) placed left right) := by
  induction placed, left, right using mergeOnto.induct with
  | case1 placed right =>
      rw [mergeOnto]
      exact .ok (by simpa using ⟨.refl _, rightAscends⟩)
  | case2 placed left nonempty =>
      rw [mergeOnto]
      · exact .ok (by simpa using ⟨.refl _, leftAscends⟩)
      · exact nonempty
  | case3 placed leftHead left rightHead right takenRight takenLeft =>
      have isLeft : IsAmong leftHead := leftAmong leftHead (by simp)
      have isRight : IsAmong rightHead := rightAmong rightHead (by simp)
      obtain ⟨-, leftsAscend, -⟩ := List.pairwise_append.mp leftAscends
      obtain ⟨-, rightsAscend, -⟩ := List.pairwise_append.mp rightAscends
      rw [mergeOnto]
      refine (ends_comparison isRight isLeft).bind fun answer answers => ?_
      cases answer with
      | true =>
          have areBefore := order.isBefore_of_ascends isRight leftAmong leftsAscend answers
          have areNotAfter : ∀ item ∈ leftHead :: left, IsNotAfter precedes rightHead item :=
            fun item isItem => order.isNotAfter_of_isBefore isRight (leftAmong item isItem)
              (areBefore item isItem)
          have moved : StablePerm precedes
              (placed.reverse ++ (leftHead :: left ++ rightHead :: right))
              ((rightHead :: placed).reverse ++ (leftHead :: left ++ right)) := by
            rw [List.reverse_cons, List.append_assoc, ← List.append_assoc [rightHead],
              List.append_cons (leftHead :: left)]
            refine (StablePerm.append_right right ?_).append_left placed.reverse
            exact .append_comm (by simpa using areBefore)
          refine (takenRight leftAmong (fun item isItem => rightAmong item (by simp [isItem])) ?_
            ?_).mono fun merged sorts => .of_stablePerm moved sorts
          · rw [List.reverse_cons]
            exact ascends_concat_append rightAscends leftAscends areNotAfter
          · rwa [List.reverse_cons, List.append_assoc]
      | false =>
          have areNotAfter := order.isNotAfter_of_ascends isLeft rightAmong rightsAscend answers
          refine (takenLeft (fun item isItem => leftAmong item (by simp [isItem])) rightAmong ?_
            ?_).mono fun merged sorts => by simpa using sorts
          · rwa [List.reverse_cons, List.append_assoc]
          · rw [List.reverse_cons]
            exact ascends_concat_append leftAscends rightAscends areNotAfter

/-- A merge from the back mirrors a merge from the front by the opposite order. -/
theorem mergeOnto_rightIsGreater (placed left right : List Item) :
    mergeOnto (rightIsGreater precedes) placed left right =
      mergeOnto (rightIsSmaller (opposite precedes)) placed right left := by
  induction placed, left, right using mergeOnto.induct with
  | case1 placed right => cases right <;> simp [mergeOnto]
  | case2 placed left nonempty =>
      cases left with
      | nil => exact absurd rfl nonempty
      | cons leftHead left => simp [mergeOnto]
  | case3 placed leftHead left rightHead right takenRight takenLeft =>
      rw [mergeOnto, mergeOnto, takenRight, takenLeft]
      simp only [rightIsGreater, rightIsSmaller, opposite]
      cases precedes rightHead leftHead with
      | error cause => rfl
      | ok answer => cases answer <;> rfl

/-- Comparisons fail as their opposites do. -/
theorem comparisonFails_of_opposite
    {cause : Failure}
    (fails : ComparisonFails (opposite precedes) IsAmong cause) :
    ComparisonFails precedes IsAmong cause := by
  obtain ⟨left, right, isLeft, isRight, isCause⟩ := fails
  exact ⟨right, left, isRight, isLeft, isCause⟩

/-- A merge sorts the values of two sorted lists. -/
theorem ends_merge
    (order : IsOrderAmong precedes IsAmong)
    {left right : List Item}
    (leftAmong : ∀ item ∈ left, IsAmong item)
    (rightAmong : ∀ item ∈ right, IsAmong item)
    (leftAscends : Ascends precedes left)
    (rightAscends : Ascends precedes right) :
    Ends (ComparisonFails precedes IsAmong) (Sorts precedes (left ++ right))
      (merge precedes left right) := by
  unfold merge
  split
  · exact (ends_mergeOnto order [] left right leftAmong rightAmong leftAscends rightAscends).bind
      fun merged sorts => .ok sorts
  · have fromBack := ends_mergeOnto order.opposite [] right.reverse left.reverse
      (by simpa using rightAmong) (by simpa using leftAmong)
      (List.pairwise_reverse.mpr rightAscends) (List.pairwise_reverse.mpr leftAscends)
    rw [mergeFromBack, mergeOnto_rightIsGreater]
    refine ⟨fun cause fails => comparisonFails_of_opposite (fromBack.fails cause fails), ?_⟩
    exact fromBack.gives.mono fun merged sorts => by simpa using sorts.of_opposite

/-! ## Merging from both ends -/

/-- The front end of a merge has placed the first values of the merged list. -/
structure MergeEnd.Merges
    (precedes : Comparison Failure Item)
    (reached : MergeEnd Item)
    (left right passedLeft passedRight : List Item) : Prop where
  /-- What is passed and what is left make the left list. -/
  left_eq : passedLeft ++ reached.left = left
  /-- What is passed and what is left make the right list. -/
  right_eq : passedRight ++ reached.right = right
  /-- What is placed is what is passed. -/
  stable : StablePerm precedes (passedLeft ++ passedRight) reached.placed.reverse
  /-- What is placed may stand in front of what is left of the left list. -/
  leftAscends : Ascends precedes (reached.placed.reverse ++ reached.left)
  /-- What is placed may stand in front of what is left of the right list. -/
  rightAscends : Ascends precedes (reached.placed.reverse ++ reached.right)
  /-- What is passed of the right list comes before what is left of the left list. -/
  isBefore : ∀ item ∈ passedRight, ∀ other ∈ reached.left, IsBefore precedes item other

/-- The front end of a merge has placed a number of values. -/
def MergeEnd.Reaches
    (precedes : Comparison Failure Item)
    (left right : List Item)
    (count : Nat)
    (reached : MergeEnd Item) : Prop :=
  ∃ passedLeft passedRight, reached.Merges precedes left right passedLeft passedRight ∧
    passedLeft.length + passedRight.length = count

namespace MergeEnd.Reaches

variable
  {left right rest others placed : List Item}
  {head : Item}
  {count : Nat}

/-- The front end of a merge starts with nothing placed. -/
theorem start
    (leftAscends : Ascends precedes left)
    (rightAscends : Ascends precedes right) :
    Reaches precedes left right 0 ⟨left, right, []⟩ :=
  ⟨[], [], ⟨rfl, rfl, .refl _, leftAscends, rightAscends, by simp⟩, rfl⟩

/-- The front end places the next value of the left list if it is not after the right list. -/
theorem placeLeft
    (reaches : Reaches precedes left right count ⟨head :: rest, others, placed⟩)
    (isNotAfter : ∀ item ∈ others, IsNotAfter precedes head item) :
    Reaches precedes left right (count + 1) ⟨rest, others, head :: placed⟩ := by
  obtain ⟨passedLeft, passedRight, merges, total⟩ := reaches
  refine ⟨passedLeft ++ [head], passedRight, ⟨?_, merges.right_eq, ?_, ?_, ?_, ?_⟩, ?_⟩
  · rw [← List.append_cons]
    exact merges.left_eq
  · have moved : StablePerm precedes ([head] ++ passedRight) (passedRight ++ [head]) :=
      .append_comm fun item isItem other isOther => merges.isBefore item isItem other (by
        rw [List.mem_singleton.mp isOther]
        exact List.mem_cons_self)
    rw [List.append_assoc, List.reverse_cons]
    refine (moved.append_left passedLeft).trans ?_
    rw [← List.append_assoc]
    exact merges.stable.append_right [head]
  · rw [List.reverse_cons, ← List.append_cons]
    exact merges.leftAscends
  · rw [List.reverse_cons]
    exact ascends_concat_append merges.leftAscends merges.rightAscends isNotAfter
  · exact fun item isItem other isOther =>
      merges.isBefore item isItem other (List.mem_cons_of_mem _ isOther)
  · rw [List.length_append, List.length_singleton]
    omega

/-- The front end places the next value of the right list if it comes before the left list. -/
theorem placeRight
    (order : IsOrderAmong precedes IsAmong)
    (isHead : IsAmong head)
    (among : ∀ item ∈ others, IsAmong item)
    (reaches : Reaches precedes left right count ⟨others, head :: rest, placed⟩)
    (isBefore : ∀ item ∈ others, IsBefore precedes head item) :
    Reaches precedes left right (count + 1) ⟨others, rest, head :: placed⟩ := by
  obtain ⟨passedLeft, passedRight, merges, total⟩ := reaches
  refine ⟨passedLeft, passedRight ++ [head], ⟨merges.left_eq, ?_, ?_, ?_, ?_, ?_⟩, ?_⟩
  · rw [← List.append_cons]
    exact merges.right_eq
  · rw [← List.append_assoc, List.reverse_cons]
    exact merges.stable.append_right [head]
  · rw [List.reverse_cons]
    exact ascends_concat_append merges.rightAscends merges.leftAscends fun item isItem =>
      order.isNotAfter_of_isBefore isHead (among item isItem) (isBefore item isItem)
  · rw [List.reverse_cons, ← List.append_cons]
    exact merges.rightAscends
  · intro item isItem other isOther
    rcases List.mem_append.mp isItem with isPassed | isNew
    · exact merges.isBefore item isPassed other isOther
    · rw [List.mem_singleton.mp isNew]
      exact isBefore other isOther
  · rw [List.length_append, List.length_singleton]
    omega

/-- The front end places one more value, as long as there is one. -/
theorem ends_advance
    (order : IsOrderAmong precedes IsAmong)
    {reached : MergeEnd Item}
    (leftAmong : ∀ item ∈ left, IsAmong item)
    (rightAmong : ∀ item ∈ right, IsAmong item)
    (reaches : reached.Reaches precedes left right count)
    (isLess : count < left.length + right.length) :
    Ends (ComparisonFails precedes IsAmong) (Reaches precedes left right (count + 1))
      (reached.advance (rightIsSmaller precedes)) := by
  obtain ⟨passedLeft, passedRight, merges, total⟩ := id reaches
  have leftIsAmong : ∀ item ∈ reached.left, IsAmong item := fun item isItem =>
    leftAmong item (by simp [← merges.left_eq, isItem])
  have rightIsAmong : ∀ item ∈ reached.right, IsAmong item := fun item isItem =>
    rightAmong item (by simp [← merges.right_eq, isItem])
  have leftsAscend := (List.pairwise_append.mp merges.leftAscends).2.1
  have rightsAscend := (List.pairwise_append.mp merges.rightAscends).2.1
  match reached with
  | ⟨[], [], placed⟩ =>
      have allLeft := congrArg List.length merges.left_eq
      have allRight := congrArg List.length merges.right_eq
      simp only [List.append_nil] at allLeft allRight
      omega
  | ⟨[], rightHead :: rest, placed⟩ =>
      exact .ok (reaches.placeRight order (rightIsAmong rightHead (by simp)) leftIsAmong (by simp))
  | ⟨leftHead :: rest, [], placed⟩ => exact .ok (reaches.placeLeft (by simp))
  | ⟨leftHead :: rest, rightHead :: others, placed⟩ =>
      have isLeft : IsAmong leftHead := leftIsAmong leftHead (by simp)
      have isRight : IsAmong rightHead := rightIsAmong rightHead (by simp)
      refine (ends_comparison isRight isLeft).bind fun answer answers => ?_
      cases answer with
      | true =>
          exact .ok (reaches.placeRight order isRight leftIsAmong
            (order.isBefore_of_ascends isRight leftIsAmong leftsAscend answers))
      | false =>
          exact .ok (reaches.placeLeft
            (order.isNotAfter_of_ascends isLeft rightIsAmong rightsAscend answers))

end MergeEnd.Reaches

/-- An end of a merge with its sides swapped. -/
def MergeEnd.mirror (reached : MergeEnd Item) : MergeEnd Item :=
  ⟨reached.right, reached.left, reached.placed⟩

/-- The back end of a merge advances as a front end does by the opposite order. -/
theorem MergeEnd.advance_rightIsGreater (reached : MergeEnd Item) :
    reached.advance (rightIsGreater precedes) =
      mirror <$> reached.mirror.advance (rightIsSmaller (opposite precedes)) := by
  match reached with
  | ⟨[], [], placed⟩ | ⟨[], _ :: _, placed⟩ | ⟨_ :: _, [], placed⟩ => rfl
  | ⟨leftHead :: left, rightHead :: right, placed⟩ =>
      simp only [advance, mirror, rightIsGreater, rightIsSmaller, opposite]
      cases precedes rightHead leftHead with
      | error cause => rfl
      | ok answer => cases answer <;> rfl

/-- Both ends of a merge place a number of values. -/
theorem ends_advanceBoth
    (order : IsOrderAmong precedes IsAmong)
    {left right : List Item}
    {front back : MergeEnd Item}
    {passed count : Nat}
    (leftAmong : ∀ item ∈ left, IsAmong item)
    (rightAmong : ∀ item ∈ right, IsAmong item)
    (frontReaches : front.Reaches precedes left right passed)
    (backReaches : back.mirror.Reaches (opposite precedes) right.reverse left.reverse passed)
    (isAtMost : passed + count ≤ left.length + right.length) :
    Ends (ComparisonFails precedes IsAmong)
      (fun ends => ends.1.Reaches precedes left right (passed + count) ∧
        ends.2.mirror.Reaches (opposite precedes) right.reverse left.reverse (passed + count))
      (advanceBoth precedes count front back) := by
  induction count generalizing front back passed with
  | zero => exact .ok ⟨frontReaches, backReaches⟩
  | succ count inductionHypothesis =>
      have isLess : passed < left.length + right.length := by omega
      have backEnds : Ends (ComparisonFails precedes IsAmong)
          (fun reached => reached.mirror.Reaches (opposite precedes) right.reverse left.reverse
            (passed + 1)) (back.advance (rightIsGreater precedes)) := by
        have mirrored := backReaches.ends_advance order.opposite (by simpa using rightAmong)
          (by simpa using leftAmong) (by simpa [Nat.add_comm] using isLess)
        rw [MergeEnd.advance_rightIsGreater, map_eq_pure_bind]
        refine Ends.bind ⟨fun cause fails => ?_, mirrored.gives⟩ fun reached reaches => .ok reaches
        exact comparisonFails_of_opposite (mirrored.fails cause fails)
      have total : passed + (count + 1) = passed + 1 + count := by omega
      rw [total]
      refine (frontReaches.ends_advance order leftAmong rightAmong isLess).bind ?_
      intro front frontReaches
      refine backEnds.bind fun back backReaches => ?_
      exact inductionHypothesis frontReaches backReaches (by omega)

/-- A prefix and a suffix that are longer than the list together share a value. -/
theorem exists_mem_of_prefix_of_suffix
    {front back values : List Item}
    (isFront : front <+: values)
    (isBack : back <:+ values)
    (overlap : values.length < front.length + back.length) :
    ∃ value, value ∈ front ∧ value ∈ back := by
  obtain ⟨rest, rfl⟩ := isFront
  rw [List.length_append] at overlap
  have restIsShorter : rest <:+ back :=
    List.suffix_of_suffix_length_le ⟨front, rfl⟩ isBack (by omega)
  obtain ⟨shared, rfl⟩ := restIsShorter
  rw [List.length_append] at overlap
  obtain ⟨passed, whole⟩ := isBack
  have isShared : passed ++ shared = front :=
    List.append_cancel_right (by rw [List.append_assoc, whole])
  have nonempty : shared ≠ [] := fun isEmpty => by
    subst isEmpty
    rw [List.length_nil] at overlap
    omega
  exact ⟨shared.head nonempty, by simp [← isShared], by simp⟩

section TwoEnds

variable
  {front back : MergeEnd Item}
  {left right passedLeft passedRight behindLeft behindRight : List Item}

/-- What the front end has placed may stand in front of all that it has not passed. -/
theorem MergeEnd.Merges.isNotAfter
    {item other : Item}
    (merges : front.Merges precedes left right passedLeft passedRight)
    (isPlaced : item ∈ front.placed)
    (isUnpassed : other ∈ front.left ++ front.right) :
    IsNotAfter precedes item other := by
  have isFirst : item ∈ front.placed.reverse := List.mem_reverse.mpr isPlaced
  rcases List.mem_append.mp isUnpassed with isLeft | isRight
  · exact (List.pairwise_append.mp merges.leftAscends).2.2 item isFirst other isLeft
  · exact (List.pairwise_append.mp merges.rightAscends).2.2 item isFirst other isRight

/--
The ends of a merge do not pass each other on the left list.  Otherwise they would both have passed
some value of it, and neither of them some value of the right list; the front end would have found
that the former may stand in front of the latter, and the back end that it comes after it.
-/
theorem MergeEnd.Merges.length_left_le
    (isFront : front.Merges precedes left right passedLeft passedRight)
    (isBack : back.Merges (opposite precedes) right.reverse left.reverse behindRight behindLeft)
    (total : passedLeft.length + passedRight.length + (behindRight.length + behindLeft.length) ≤
      left.length + right.length) :
    left.length ≤ front.left.length + back.right.length := by
  by_contra crossed
  have frontLeft := congrArg List.length isFront.left_eq
  have frontRight := congrArg List.length isFront.right_eq
  have backRight := congrArg List.length isBack.left_eq
  have backLeft := congrArg List.length isBack.right_eq
  simp only [List.length_append, List.length_reverse] at frontLeft frontRight backRight backLeft
  obtain ⟨shared, isPassed, isBehind⟩ :
      ∃ shared, shared ∈ passedLeft ∧ shared ∈ behindLeft.reverse :=
    exists_mem_of_prefix_of_suffix ⟨front.left, isFront.left_eq⟩
      ⟨back.right.reverse, by rw [← List.reverse_append, isBack.right_eq, List.reverse_reverse]⟩
      (by rw [List.length_reverse]; omega)
  obtain ⟨missed, isBefore, isUnpassed⟩ :
      ∃ missed, missed ∈ back.left.reverse ∧ missed ∈ front.right :=
    exists_mem_of_prefix_of_suffix
      ⟨behindRight.reverse, by rw [← List.reverse_append, isBack.left_eq, List.reverse_reverse]⟩
      ⟨passedRight, isFront.right_eq⟩ (by rw [List.length_reverse]; omega)
  have isPlaced : shared ∈ front.placed :=
    List.mem_reverse.mp (isFront.stable.perm.mem_iff.mp (by simp [isPassed]))
  have mayBeFirst : precedes missed shared = .ok false :=
    isFront.isNotAfter isPlaced (by simp [isUnpassed])
  have comesBefore : precedes missed shared = .ok true :=
    isBack.isBefore shared (List.mem_reverse.mp isBehind) missed (List.mem_reverse.mp isBefore)
  cases mayBeFirst.symm.trans comesBefore

/-- What the ends of a merge have placed, with at most one value between, is the merged list. -/
theorem MergeEnd.Merges.sorts
    {middleLeft middleRight : List Item}
    (isFront : front.Merges precedes left right passedLeft passedRight)
    (isBack : back.Merges (opposite precedes) right.reverse left.reverse behindRight behindLeft)
    (wholeLeft : passedLeft ++ middleLeft ++ behindLeft.reverse = left)
    (wholeRight : passedRight ++ middleRight ++ behindRight.reverse = right)
    (few : (middleLeft ++ middleRight).length ≤ 1) :
    Sorts precedes (left ++ right)
      (front.placed.reverse ++ middleLeft ++ middleRight ++ back.placed) := by
  have frontLeft : front.left = middleLeft ++ behindLeft.reverse :=
    List.append_cancel_left (by rw [isFront.left_eq, ← List.append_assoc, wholeLeft])
  have frontRight : front.right = middleRight ++ behindRight.reverse :=
    List.append_cancel_left (by rw [isFront.right_eq, ← List.append_assoc, wholeRight])
  have backRight : back.right = middleLeft.reverse ++ passedLeft.reverse :=
    List.append_cancel_left (by rw [isBack.right_eq, ← wholeLeft]; simp)
  have backLeft : back.left = middleRight.reverse ++ passedRight.reverse :=
    List.append_cancel_left (by rw [isBack.left_eq, ← wholeRight]; simp)
  have placedBehind : StablePerm precedes (behindLeft.reverse ++ behindRight.reverse)
      back.placed := by
    simpa using isBack.stable.of_opposite
  constructor
  · -- What is passed of the right list moves over the rest of the left one, and then the middle of
    -- the right list over what is behind.
    have rightMoves : StablePerm precedes (front.left ++ passedRight) (passedRight ++ front.left) :=
      .append_comm isFront.isBefore
    have middleMoves : StablePerm precedes (behindLeft.reverse ++ middleRight)
        (middleRight ++ behindLeft.reverse) :=
      .append_comm fun item isItem other isOther =>
        isBack.isBefore other (List.mem_reverse.mp isOther) item (by simp [backLeft, isItem])
    have moved : StablePerm precedes (left ++ right)
        (passedLeft ++ passedRight ++ (middleLeft ++ middleRight) ++
          (behindLeft.reverse ++ behindRight.reverse)) := by
      have first := (rightMoves.append_left passedLeft).append_right
        (middleRight ++ behindRight.reverse)
      have second :=
        (middleMoves.append_left (passedLeft ++ passedRight ++ middleLeft)).append_right
          behindRight.reverse
      simp only [← wholeLeft, ← wholeRight, frontLeft, List.append_assoc] at first second ⊢
      exact first.trans second
    have placed := (isFront.stable.append_right (middleLeft ++ middleRight)).append placedBehind
    simpa only [List.append_assoc] using moved.trans placed
  · have isUnpassed : ∀ item ∈ middleLeft ++ middleRight ++ back.placed,
        item ∈ front.left ++ front.right := by
      intro item isItem
      have isBehind := placedBehind.perm.mem_iff (a := item)
      simp only [frontLeft, frontRight, List.mem_append] at isItem isBehind ⊢
      tauto
    have middleAscends : Ascends precedes (middleLeft ++ middleRight) :=
      match middleLeft ++ middleRight, few with
      | [], _ => .nil
      | [item], _ => List.pairwise_singleton _ item
    have backAscends : Ascends precedes back.placed :=
      List.pairwise_reverse.mp (List.pairwise_append.mp isBack.leftAscends).1
    rw [List.append_assoc front.placed.reverse, List.append_assoc front.placed.reverse]
    refine List.pairwise_append.mpr ⟨(List.pairwise_append.mp isFront.leftAscends).1,
      List.pairwise_append.mpr ⟨middleAscends, backAscends, ?_⟩, ?_⟩
    · intro item isMiddle other isPlaced
      refine isBack.isNotAfter isPlaced ?_
      rw [backLeft, backRight]
      simp only [List.mem_append, List.mem_reverse] at isMiddle ⊢
      tauto
    · exact fun item isPlaced other isOther =>
        isFront.isNotAfter (List.mem_reverse.mp isPlaced) (isUnpassed other isOther)

end TwoEnds

/-- A merge from both ends sorts the values of two sorted lists. -/
theorem ends_mergeFromEnds
    [HasDisorder Failure]
    (order : IsOrderAmong precedes IsAmong)
    {left right : List Item}
    (leftAmong : ∀ item ∈ left, IsAmong item)
    (rightAmong : ∀ item ∈ right, IsAmong item)
    (leftAscends : Ascends precedes left)
    (rightAscends : Ascends precedes right) :
    Ends (ComparisonFails precedes IsAmong) (Sorts precedes (left ++ right))
      (mergeFromEnds precedes left right) := by
  have half : 0 + (left.length + right.length) / 2 ≤ left.length + right.length := by omega
  have backStarts : (MergeEnd.mirror ⟨left.reverse, right.reverse, []⟩).Reaches
      (opposite precedes) right.reverse left.reverse 0 :=
    .start (List.pairwise_reverse.mpr rightAscends) (List.pairwise_reverse.mpr leftAscends)
  refine (ends_advanceBoth order leftAmong rightAmong (.start leftAscends rightAscends)
    backStarts half).bind ?_
  rintro ⟨front, back⟩ ⟨⟨passedLeft, passedRight, isFront, frontTotal⟩,
    ⟨behindRight, behindLeft, isBack, backTotal⟩⟩
  simp only at isFront isBack ⊢
  have apartLeft : left.length ≤ front.left.length + back.left.length :=
    isFront.length_left_le isBack (by omega)
  -- Seen by the opposite order the ends swap their parts, and so do the lists.
  have apartRight : right.length ≤ front.right.length + back.right.length := by
    have apart := isBack.length_left_le (by simpa using isFront)
      (by simp only [List.length_reverse]; omega)
    rwa [List.length_reverse, Nat.add_comm] at apart
  rw [if_pos ⟨apartLeft, apartRight⟩]
  have wholeLeft := append_take_append_reverse isFront.left_eq isBack.right_eq apartLeft
  have wholeRight := append_take_append_reverse isFront.right_eq isBack.left_eq apartRight
  have sorts := isFront.sorts isBack wholeLeft wholeRight (by
    have lengthLeft := congrArg List.length wholeLeft
    have lengthRight := congrArg List.length wholeRight
    simp only [List.length_append, List.length_reverse] at lengthLeft lengthRight ⊢
    omega)
  exact .ok sorts

end Sorting
end TemplatedMarkup
