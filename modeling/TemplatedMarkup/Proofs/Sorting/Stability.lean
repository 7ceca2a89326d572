import TemplatedMarkup.Proofs.Sorting.StableRun

/-!
# The sort is stable

Where the comparison orders the values, a sort that succeeds gives a stable rearrangement in
ascending order, and a sort that fails does so because a comparison fails: it never finds out that
there is no order.
-/

namespace TemplatedMarkup
namespace Sorting

variable
  {Failure Item : Type}
  {precedes : Comparison Failure Item}
  {IsAmong : Item → Prop}

/-! ## Pivots -/

/-- The position of a median is found by comparing values of the list. -/
theorem ends_medianPosition
    {valueAt : Nat → Item}
    (among : ∀ index, IsAmong (valueAt index))
    (first second third : Nat) :
    Ends (ComparisonFails precedes IsAmong) (fun _ => True)
      (medianPosition precedes valueAt first second third) := by
  refine (ends_comparison (among first) (among second)).bind fun beforeSecond _ => ?_
  refine (ends_comparison (among first) (among third)).bind fun beforeThird _ => ?_
  split
  · exact (ends_comparison (among second) (among third)).bind fun _ _ => .ok trivial
  · exact .ok trivial

/-- The median of three stretches is found by comparing values of the list. -/
theorem ends_medianOfStretches
    {valueAt : Nat → Item}
    (among : ∀ index, IsAmong (valueAt index))
    (width first second third : Nat) :
    Ends (ComparisonFails precedes IsAmong) (fun _ => True)
      (medianOfStretches precedes valueAt width first second third) := by
  induction width using Nat.strong_induction_on generalizing first second third with
  | h width narrower =>
      rw [medianOfStretches]
      split
      · rename_i wide
        have isNarrower : width / 8 < width := by
          rw [minMedianWidth] at wide
          omega
        have median (start : Nat) :=
          narrower (width / 8) isNarrower start (start + 4 * (width / 8)) (start + 7 * (width / 8))
        refine (median first).bind fun first _ => (median second).bind fun second _ => ?_
        exact (median third).bind fun third _ => ends_medianPosition among first second third
      · exact ends_medianPosition among first second third

/-- Whether a comparison answers yes. -/
def isYes (outcome : Except Failure Bool) : Bool :=
  outcome.toOption.getD false

@[simp] theorem isYes_ok (answer : Bool) : isYes (.ok answer : Except Failure Bool) = answer :=
  rfl

/-- Parting a list by a test separates the values that pass it from the others. -/
theorem ends_partOnto
    {IsCause : Failure → Prop}
    {test : Item → Except Failure Bool}
    {passes : Item → Bool}
    (passing failing values : List Item)
    (tests : ∀ item ∈ values, Ends IsCause (· = passes item) (test item)) :
    Ends IsCause
      (fun parts => parts = (passing.reverse ++ values.filter passes,
          failing.reverse ++ values.filter (!passes ·)) ∧
        ∀ item ∈ values, test item = .ok (passes item))
      (partOnto test passing failing values) := by
  induction values generalizing passing failing with
  | nil => exact .ok ⟨by simp, nofun⟩
  | cons value values inductionHypothesis =>
      rw [List.forall_mem_cons] at tests
      have answered : Ends IsCause (fun answer => test value = .ok answer ∧ answer = passes value)
          (test value) := tests.1.and fun _ answers => answers
      refine answered.bind fun answer ⟨answers, isAnswer⟩ => ?_
      subst isAnswer
      split
      · rename_i passed
        refine (inductionHypothesis (value :: passing) failing tests.2).mono ?_
        rintro parts ⟨rfl, answered⟩
        exact ⟨by simp [passed], List.forall_mem_cons.mpr ⟨answers, answered⟩⟩
      · rename_i failed
        refine (inductionHypothesis passing (value :: failing) tests.2).mono ?_
        rintro parts ⟨rfl, answered⟩
        exact ⟨by simp [failed], List.forall_mem_cons.mpr ⟨answers, answered⟩⟩

/-- A value that is compared with another one may stand in front of itself. -/
theorem IsOrderAmong.isNotAfter_self
    (order : IsOrderAmong precedes IsAmong)
    {value other : Item}
    {answer : Bool}
    (isValue : IsAmong value)
    (isOther : IsAmong other)
    (answers : precedes other value = .ok answer) :
    IsNotAfter precedes value value := by
  obtain ⟨backAnswer, answersBack, -⟩ := order.back isOther isValue answers
  exact order.self isValue isOther answersBack

/-- Two parts of a list around a pivot: the first part comes before the second one. -/
structure Pivoted.Parts
    (precedes : Comparison Failure Item)
    (IsLower IsUpper : Item → Prop)
    (list : Pivoted Item)
    (parts : List Item × List Item) : Prop where
  /-- The parts are the list, stably rearranged. -/
  stable : StablePerm precedes list.values (parts.1 ++ parts.2)
  /-- The first part lies on one side of the pivot. -/
  lower : ∀ item ∈ parts.1, IsLower item
  /-- The second part lies on the other side. -/
  upper : ∀ item ∈ parts.2, IsUpper item

/-- A list parted by a test that agrees with the order around its pivot. -/
theorem Pivoted.Parts.of_filter
    {IsLower IsUpper : Item → Prop}
    {list : Pivoted Item}
    {passes : Item → Bool}
    (areBefore : ∀ left right, left ∈ list.values → right ∈ list.values → IsLower left →
      IsUpper right → IsBefore precedes left right)
    (isLower : ∀ item ∈ list.values, passes item = true → IsLower item)
    (isUpper : ∀ item ∈ list.values, passes item = false → IsUpper item) :
    Parts precedes IsLower IsUpper list
      (list.values.filter passes, list.values.filter (!passes ·)) where
  stable := .filter_append fun left isLeft right isRight passed failed =>
    areBefore left right isLeft isRight (isLower left isLeft passed) (isUpper right isRight failed)
  lower item isItem := by
    obtain ⟨isAmong, passed⟩ := List.mem_filter.mp isItem
    exact isLower item isAmong passed
  upper item isItem := by
    obtain ⟨isAmong, failed⟩ := List.mem_filter.mp isItem
    exact isUpper item isAmong (by simpa using failed)

/-- A test of the values around a pivot parts those before and those after it. -/
theorem Pivoted.ends_parting
    {Result : Type}
    {IsCause : Failure → Prop}
    {IsResult : Result → Prop}
    {test : Item → Except Failure Bool}
    {finish : List Item × List Item → List Item × List Item → Except Failure Result}
    (list : Pivoted Item)
    (passes : Item → Bool)
    (tests : ∀ item ∈ list.before ++ list.after, Ends IsCause (· = passes item) (test item))
    (finishes : (∀ item ∈ list.before ++ list.after, test item = .ok (passes item)) →
      Ends IsCause IsResult (finish (list.before.filter passes, list.before.filter (!passes ·))
        (list.after.filter passes, list.after.filter (!passes ·)))) :
    Ends IsCause IsResult (do
      let before ← partOnto test [] [] list.before
      let after ← partOnto test [] [] list.after
      finish before after) := by
  rw [List.forall_mem_append] at tests
  refine (ends_partOnto [] [] list.before tests.1).bind ?_
  rintro _ ⟨rfl, beforeAnswered⟩
  refine (ends_partOnto [] [] list.after tests.2).bind ?_
  rintro _ ⟨rfl, afterAnswered⟩
  exact finishes (List.forall_mem_append.mpr ⟨beforeAnswered, afterAnswered⟩)

/-- There is a value beside the pivot if there are two values. -/
theorem Pivoted.exists_mem_of_lt_length
    (list : Pivoted Item)
    (several : 1 < list.values.length) :
    ∃ item, item ∈ list.before ++ list.after := by
  refine List.exists_mem_of_length_pos ?_
  simp only [values, List.length_append, List.length_cons] at several ⊢
  omega

section Parting

variable
  {list : Pivoted Item}
  (order : IsOrderAmong precedes IsAmong)
  (among : ∀ item ∈ list.values, IsAmong item)
  (isCompared : ∃ item, item ∈ list.before ++ list.after)

/-- What holds of the pivot and of the values around it holds of all values. -/
theorem Pivoted.forall_mem_values
    {Holds : Item → Prop}
    (ofPivot : Holds list.pivot)
    (ofOthers : ∀ item ∈ list.before ++ list.after, Holds item) :
    ∀ item ∈ list.values, Holds item := by
  intro item isItem
  rcases List.mem_append.mp isItem with isBefore | isRest
  · exact ofOthers item (List.mem_append_left _ isBefore)
  · rcases List.mem_cons.mp isRest with rfl | isAfter
    · exact ofPivot
    · exact ofOthers item (List.mem_append_right _ isAfter)

/-- The values around the pivot are among the values. -/
theorem Pivoted.mem_values
    {item : Item}
    (isOther : item ∈ list.before ++ list.after) :
    item ∈ list.values := by
  rcases List.mem_append.mp isOther with isBefore | isAfter
  · exact List.mem_append_left _ isBefore
  · exact List.mem_append_right _ (List.mem_cons_of_mem _ isAfter)

include order among isCompared

/-- Parting a list below its pivot separates the lesser values. -/
theorem Pivoted.ends_partBelow :
    Ends (ComparisonFails precedes IsAmong)
      (list.Parts precedes (IsBefore precedes · list.pivot) (IsNotAfter precedes list.pivot))
      (list.partBelow precedes) := by
  have isPivot : IsAmong list.pivot := among list.pivot (by simp [values])
  let isBelow (item : Item) : Bool := isYes (precedes item list.pivot)
  have tests : ∀ item ∈ list.before ++ list.after, Ends (ComparisonFails precedes IsAmong)
      (· = isBelow item) (precedes item list.pivot) := fun item isItem =>
    (ends_comparison (among item (mem_values isItem)) isPivot).mono fun answer answers => by
      simp only [isBelow, answers, isYes_ok]
  refine list.ends_parting isBelow tests fun answered => .ok ?_
  obtain ⟨other, isOther⟩ := isCompared
  have isSelf : precedes list.pivot list.pivot = .ok false :=
    order.isNotAfter_self isPivot (among other (mem_values isOther)) (answered other isOther)
  have allAnswered : ∀ item ∈ list.values, precedes item list.pivot = .ok (isBelow item) :=
    forall_mem_values (by simp only [isBelow, isSelf, isYes_ok]) answered
  have parts : list.Parts precedes (IsBefore precedes · list.pivot)
      (IsNotAfter precedes list.pivot)
      (list.values.filter isBelow, list.values.filter (!isBelow ·)) :=
    .of_filter
      (fun left right isLeft isRight lower upper => order.isBefore_of_isBefore_of_isNotAfter
        (among left isLeft) isPivot (among right isRight) lower upper)
      (fun item isItem passed => (allAnswered item isItem).trans (congrArg _ passed))
      (fun item isItem failed => (allAnswered item isItem).trans (congrArg _ failed))
  have pivotIsAbove : isBelow list.pivot = false := by simp only [isBelow, isSelf, isYes_ok]
  simpa [values, pivotIsAbove] using parts

/-- Parting a list up to its pivot separates the greater values. -/
theorem Pivoted.ends_partUpTo :
    Ends (ComparisonFails precedes IsAmong)
      (list.Parts precedes (IsNotAfter precedes · list.pivot) (IsBefore precedes list.pivot))
      (list.partUpTo precedes) := by
  have isPivot : IsAmong list.pivot := among list.pivot (by simp [values])
  let isAbove (item : Item) : Bool := isYes (precedes list.pivot item)
  have tests : ∀ item ∈ list.before ++ list.after, Ends (ComparisonFails precedes IsAmong)
      (· = !isAbove item) (do return !(← precedes list.pivot item)) := fun item isItem =>
    (ends_comparison isPivot (among item (mem_values isItem))).bind fun answer answers => by
      simpa only [isAbove, answers, isYes_ok] using .ok rfl
  refine list.ends_parting (!isAbove ·) tests fun passed => .ok ?_
  have answered : ∀ item ∈ list.before ++ list.after,
      precedes list.pivot item = .ok (isAbove item) := by
    intro item isItem
    obtain ⟨answer, answers, -⟩ := exists_of_bind_eq_ok (passed item isItem)
    simp only [isAbove, answers, isYes_ok]
  obtain ⟨other, isOther⟩ := isCompared
  have isSelf : precedes list.pivot list.pivot = .ok false :=
    order.self isPivot (among other (mem_values isOther)) (answered other isOther)
  have allAnswered : ∀ item ∈ list.values, precedes list.pivot item = .ok (isAbove item) :=
    forall_mem_values (by simp only [isAbove, isSelf, isYes_ok]) answered
  have parts : list.Parts precedes (IsNotAfter precedes · list.pivot)
      (IsBefore precedes list.pivot)
      (list.values.filter (!isAbove ·), list.values.filter (!!isAbove ·)) :=
    .of_filter
      (fun left right isLeft isRight lower upper => order.isBefore_of_isNotAfter_of_isBefore
        (among left isLeft) isPivot (among right isRight) lower upper)
      (fun item isItem passed => by
        rw [Bool.not_eq_true'] at passed
        exact (allAnswered item isItem).trans (congrArg _ passed))
      (fun item isItem failed => by
        rw [Bool.not_eq_false'] at failed
        exact (allAnswered item isItem).trans (congrArg _ failed))
  have pivotIsNotAbove : isAbove list.pivot = false := by simp only [isAbove, isSelf, isYes_ok]
  simpa [values, pivotIsNotAbove] using parts

end Parting

/-! ## Sorting around pivots -/

/-- A value that may stand in front of all values of a list, if there is one. -/
def IsLowerBound
    (precedes : Comparison Failure Item)
    (IsAmong : Item → Prop)
    (ancestor : Option Item)
    (values : List Item) : Prop :=
  ∀ bound ∈ ancestor, IsAmong bound ∧ ∀ item ∈ values, IsNotAfter precedes bound item

/-- Without a pivot there is no lower bound to keep. -/
theorem isLowerBound_none
    (values : List Item) :
    IsLowerBound precedes IsAmong none values := by
  intro bound isBound
  cases isBound

/-- Sorted parts are sorted together if a pivot may stand between them. -/
theorem sorts_append_of_pivot
    (order : IsOrderAmong precedes IsAmong)
    {pivot : Item}
    {values lower upper lowerSorted upperSorted : List Item}
    (isPivot : IsAmong pivot)
    (among : ∀ item ∈ values, IsAmong item)
    (parted : StablePerm precedes values (lower ++ upper))
    (areLower : ∀ item ∈ lower, IsNotAfter precedes item pivot)
    (areUpper : ∀ item ∈ upper, IsNotAfter precedes pivot item)
    (lowerSorts : Sorts precedes lower lowerSorted)
    (upperSorts : Sorts precedes upper upperSorted) :
    Sorts precedes values (lowerSorted ++ upperSorted) := by
  have partsAmong := parted.among among
  rw [List.forall_mem_append] at partsAmong
  refine ⟨parted.trans (lowerSorts.stable.append upperSorts.stable),
    List.pairwise_append.mpr ⟨lowerSorts.ascends, upperSorts.ascends, ?_⟩⟩
  intro left isLeft right isRight
  exact order.trans (lowerSorts.among partsAmong.1 left isLeft) isPivot
    (upperSorts.among partsAmong.2 right isRight) (lowerSorts.among areLower left isLeft)
    (upperSorts.among areUpper right isRight)

/-- A list with a pivot is sorted by sorting the parts around the pivot. -/
theorem Pivoted.ends_sortParts
    (order : IsOrderAmong precedes IsAmong)
    {sortPart : Option Item → List Item → Except Failure (List Item)}
    (partEnds : ∀ ancestor values, (∀ item ∈ values, IsAmong item) →
      IsLowerBound precedes IsAmong ancestor values →
      Ends (ComparisonFails precedes IsAmong) (Sorts precedes values) (sortPart ancestor values))
    {list : Pivoted Item}
    {ancestor : Option Item}
    {parts : List Item × List Item}
    (among : ∀ item ∈ list.values, IsAmong item)
    (isCompared : ∃ item, item ∈ list.before ++ list.after)
    (isBound : IsLowerBound precedes IsAmong ancestor list.values)
    (areParts : list.Parts precedes (IsBefore precedes · list.pivot)
      (IsNotAfter precedes list.pivot) parts) :
    Ends (ComparisonFails precedes IsAmong) (Sorts precedes list.values)
      (if parts.1.isEmpty then do
        let (least, greater) ← list.partUpTo precedes
        return least ++ (← sortPart none greater)
      else do
        let upper ← sortPart (some list.pivot) parts.2
        let lower ← sortPart ancestor parts.1
        return lower ++ upper) := by
  have isPivot : IsAmong list.pivot := among list.pivot (by simp [values])
  split
  · rename_i isEmpty
    -- No value comes before the pivot, so those that it does not precede have no strict order.
    have isLeast : ∀ item ∈ list.values, IsNotAfter precedes list.pivot item := fun item isItem =>
      areParts.upper item (by
        simpa [List.isEmpty_iff.mp isEmpty] using areParts.stable.perm.mem_iff.mp isItem)
    refine (ends_partUpTo order among isCompared).bind ?_
    rintro ⟨least, greater⟩ parted
    have partsAmong := parted.stable.among among
    have areLeast := parted.stable.among isLeast
    rw [List.forall_mem_append] at partsAmong areLeast
    have leastAscends : Ascends precedes least :=
      List.pairwise_of_forall_mem_list fun left isLeft right isRight =>
        order.trans (partsAmong.1 left isLeft) isPivot (partsAmong.1 right isRight)
          (parted.lower left isLeft) (areLeast.1 right isRight)
    refine (partEnds none greater partsAmong.2 (isLowerBound_none greater)).bind ?_
    intro sorted sorts
    exact .ok (sorts_append_of_pivot order isPivot among parted.stable parted.lower areLeast.2
      ⟨.refl _, leastAscends⟩ sorts)
  · have partsAmong := areParts.stable.among among
    rw [List.forall_mem_append] at partsAmong
    have upperBound : IsLowerBound precedes IsAmong (some list.pivot) parts.2 := by
      rintro _ ⟨⟩
      exact ⟨isPivot, areParts.upper⟩
    have lowerBound : IsLowerBound precedes IsAmong ancestor parts.1 := by
      intro bound isAncestor
      obtain ⟨isAmong, isBelow⟩ := isBound bound isAncestor
      exact ⟨isAmong, (List.forall_mem_append.mp (areParts.stable.among isBelow)).1⟩
    refine (partEnds _ parts.2 partsAmong.2 upperBound).bind fun upper upperSorts => ?_
    refine (partEnds _ parts.1 partsAmong.1 lowerBound).bind fun lower lowerSorts => .ok ?_
    exact sorts_append_of_pivot order isPivot among areParts.stable
      (fun item isItem => order.isNotAfter_of_isBefore (partsAmong.1 item isItem) isPivot
        (areParts.lower item isItem))
      areParts.upper lowerSorts upperSorts

/-- A list with a pivot is parted below it, unless the pivot is known to be a least value. -/
theorem Pivoted.ends_parted
    (order : IsOrderAmong precedes IsAmong)
    {Result : Type}
    {IsResult : Result → Prop}
    {rest : List Item × List Item → Except Failure Result}
    {list : Pivoted Item}
    (among : ∀ item ∈ list.values, IsAmong item)
    (isCompared : ∃ item, item ∈ list.before ++ list.after)
    (finishes : ∀ parts, list.Parts precedes (IsBefore precedes · list.pivot)
      (IsNotAfter precedes list.pivot) parts →
      Ends (ComparisonFails precedes IsAmong) IsResult (rest parts))
    (isLeast : Bool)
    (least : isLeast = true → ∀ item ∈ list.values, IsNotAfter precedes list.pivot item) :
    Ends (ComparisonFails precedes IsAmong) IsResult
      (if isLeast then do rest (← pure ([], list.values))
      else do rest (← list.partBelow precedes)) := by
  split
  · rename_i isLeast
    exact finishes ([], list.values) ⟨.refl _, nofun, least isLeast⟩
  · exact (ends_partBelow order among isCompared).bind finishes

/-- Sorting around pivots sorts. -/
theorem ends_sortByPivots
    [HasDisorder Failure]
    (order : IsOrderAmong precedes IsAmong)
    (limit : Nat)
    (ancestor : Option Item)
    (values : List Item)
    (among : ∀ item ∈ values, IsAmong item)
    (isBound : IsLowerBound precedes IsAmong ancestor values) :
    Ends (ComparisonFails precedes IsAmong) (Sorts precedes values)
      (sortByPivots precedes limit ancestor values) := by
  induction limit generalizing ancestor values with
  | zero =>
      cases values with
      | nil => exact .ok ⟨.refl _, .nil⟩
      | cons first others =>
          rw [sortByPivots]
          split
          · exact ends_sortShort order among
          · exact ends_sortByRuns order (fun values among => ends_sortByInsertion order among)
              true among
  | succ limit inductionHypothesis =>
      cases values with
      | nil => exact .ok ⟨.refl _, .nil⟩
      | cons first others =>
          rw [sortByPivots]
          simp only
          split
          · exact ends_sortShort order among
          · rename_i long
            have valuesAmong (index : Nat) :
                IsAmong ((first :: others).toArray.getD index first) := by
              rw [Array.getD_eq_getD_getElem?, List.getElem?_toArray]
              cases found : (first :: others)[index]? with
              | none => exact among first List.mem_cons_self
              | some value => exact among value (List.mem_of_getElem? found)
            refine (ends_medianOfStretches valuesAmong _ _ _ _).bind fun position _ => ?_
            have whole := Pivoted.values_ofPosition [] position first others
            generalize Pivoted.ofPosition [] position first others = list at whole ⊢
            rw [List.reverse_nil, List.nil_append] at whole
            rw [← whole] at among isBound long ⊢
            have isCompared := list.exists_mem_of_lt_length (by rw [maxShortLength] at long; omega)
            have finishes := Pivoted.ends_parted order among isCompared fun parts areParts =>
              Pivoted.ends_sortParts order inductionHypothesis among isCompared isBound areParts
            cases ancestor with
            | none => exact finishes false (absurd · Bool.false_ne_true)
            | some ancestor =>
                obtain ⟨isAncestor, isBelow⟩ := isBound ancestor rfl
                have isPivot : IsAmong list.pivot := among list.pivot (by simp [Pivoted.values])
                refine (ends_comparison isAncestor isPivot).bind fun comesFirst answers => ?_
                refine finishes _ fun isLeast item isItem => ?_
                rw [Bool.not_eq_true'] at isLeast
                subst isLeast
                exact order.trans isPivot isAncestor (among item isItem) answers
                  (isBelow item isItem)

/-! ## The sort -/

/-- Sorting a stretch around pivots sorts it. -/
theorem ends_sortStretch
    [HasDisorder Failure]
    (order : IsOrderAmong precedes IsAmong)
    (values : List Item)
    (among : ∀ item ∈ values, IsAmong item) :
    Ends (ComparisonFails precedes IsAmong) (Sorts precedes values)
      (sortStretch precedes values) :=
  ends_sortByPivots order _ none values among (isLowerBound_none values)

/-- By an order a sort gives a sorted stable rearrangement, or fails because a comparison does. -/
theorem ends_sort
    [HasDisorder Failure]
    (order : IsOrderAmong precedes IsAmong)
    {values : List Item}
    (among : ∀ item ∈ values, IsAmong item) :
    Ends (ComparisonFails precedes IsAmong) (Sorts precedes values) (sort precedes values) := by
  unfold sort
  split
  · exact ends_sortByInsertion order among
  · exact ends_sortByRuns order (ends_sortStretch order) _ among

end Sorting
end TemplatedMarkup
