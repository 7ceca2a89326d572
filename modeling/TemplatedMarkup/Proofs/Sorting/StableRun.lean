import TemplatedMarkup.Proofs.Sorting.Rearrangement
import TemplatedMarkup.Proofs.Sorting.StableMerge

/-!
# Short lists and runs by an order

Where the comparison orders the values, a short list is sorted, a run is a stable rearrangement of
the stretch that it takes, and joining runs sorts the list that they are cut from.
-/

namespace TemplatedMarkup
namespace Sorting

variable
  {Failure Item : Type}
  {precedes : Comparison Failure Item}
  {IsAmong : Item → Prop}

/-! ## Short lists -/

/-- Two values that are swapped if the second one precedes the first one are sorted. -/
theorem sorts_of_swap
    (order : IsOrderAmong precedes IsAmong)
    {swapped : Bool}
    {first second low high : Item}
    (isFirst : IsAmong first)
    (isSecond : IsAmong second)
    (answers : precedes second first = .ok swapped)
    (isPair : (if swapped then (second, first) else (first, second)) = (low, high)) :
    Sorts precedes [first, second] [low, high] := by
  cases swapped with
  | true =>
      cases isPair
      exact ⟨.swap answers [], List.pairwise_pair.mpr
        (order.isNotAfter_of_isBefore isSecond isFirst answers)⟩
  | false =>
      cases isPair
      exact ⟨.refl _, List.pairwise_pair.mpr answers⟩

/-- Four values of which only the order of the middle ones is open. -/
structure IsFramed
    (precedes : Comparison Failure Item)
    (least left right greatest : Item) : Prop where
  least_left : IsNotAfter precedes least left
  least_right : IsNotAfter precedes least right
  left_greatest : IsNotAfter precedes left greatest
  right_greatest : IsNotAfter precedes right greatest

/-- Framed values are sorted once the middle ones are. -/
theorem IsFramed.ascends
    (order : IsOrderAmong precedes IsAmong)
    {least left right greatest : Item}
    (isLeast : IsAmong least)
    (isLeft : IsAmong left)
    (isGreatest : IsAmong greatest)
    (framed : IsFramed precedes least left right greatest)
    (middle : IsNotAfter precedes left right) :
    Ascends precedes [least, left, right, greatest] := by
  have whole : IsNotAfter precedes least greatest :=
    order.trans isLeast isLeft isGreatest framed.least_left framed.left_greatest
  simpa [Ascends, framed.least_left, framed.least_right, framed.left_greatest,
    framed.right_greatest, middle] using whole

/-- Two sorted pairs are framed by the lesser of the low and the greater of the high values. -/
theorem framed_of_pairs
    (order : IsOrderAmong precedes IsAmong)
    {low high otherLow otherHigh least left right greatest : Item}
    {lowsAreSwapped highsAreSwapped : Bool}
    (areAmong : ∀ item ∈ [low, high, otherLow, otherHigh], IsAmong item)
    (isFour : (match lowsAreSwapped, highsAreSwapped with
      | false, false => (low, high, otherLow, otherHigh)
      | false, true => (low, otherLow, otherHigh, high)
      | true, false => (otherLow, low, high, otherHigh)
      | true, true => (otherLow, low, otherHigh, high)) = (least, left, right, greatest))
    (ascends : IsNotAfter precedes low high)
    (otherAscends : IsNotAfter precedes otherLow otherHigh)
    (lows : precedes otherLow low = .ok lowsAreSwapped)
    (highs : precedes otherHigh high = .ok highsAreSwapped) :
    StablePerm precedes [low, high, otherLow, otherHigh] [least, left, right, greatest] ∧
      IsFramed precedes least left right greatest := by
  simp only [List.forall_mem_cons] at areAmong
  obtain ⟨isLow, isHigh, isOtherLow, isOtherHigh, -⟩ := areAmong
  -- In the last two cases the other low value moves in front of the first pair.
  have lowMoves (lows : IsBefore precedes otherLow low) :
      StablePerm precedes ([low, high] ++ [otherLow]) ([otherLow] ++ [low, high]) :=
    .append_comm (by simpa using ⟨lows,
      order.isBefore_of_isBefore_of_isNotAfter isOtherLow isLow isHigh lows ascends⟩)
  match lowsAreSwapped, highsAreSwapped with
  | false, false =>
      cases isFour
      exact ⟨.refl _, ascends, lows, highs, otherAscends⟩
  | false, true =>
      cases isFour
      have before : IsBefore precedes otherLow high :=
        order.isBefore_of_isNotAfter_of_isBefore isOtherLow isOtherHigh isHigh otherAscends highs
      have moved : StablePerm precedes ([high] ++ [otherLow, otherHigh])
          ([otherLow, otherHigh] ++ [high]) :=
        .append_comm (by simpa using ⟨before, highs⟩)
      exact ⟨.cons low moved, lows, order.trans isLow isOtherLow isOtherHigh lows otherAscends,
        order.isNotAfter_of_isBefore isOtherLow isHigh before,
        order.isNotAfter_of_isBefore isOtherHigh isHigh highs⟩
  | true, false =>
      cases isFour
      have notAfter := order.isNotAfter_of_isBefore isOtherLow isLow lows
      exact ⟨(lowMoves lows).append_right [otherHigh], notAfter,
        order.trans isOtherLow isLow isHigh notAfter ascends,
        order.trans isLow isHigh isOtherHigh ascends highs, highs⟩
  | true, true =>
      cases isFour
      have swapped : StablePerm precedes [otherLow, low, high, otherHigh]
          [otherLow, low, otherHigh, high] := .cons otherLow (.cons low (.swap highs []))
      exact ⟨((lowMoves lows).append_right [otherHigh]).trans swapped,
        order.isNotAfter_of_isBefore isOtherLow isLow lows, otherAscends, ascends,
        order.isNotAfter_of_isBefore isOtherHigh isHigh highs⟩

/-- Four values are sorted. -/
theorem ends_sortFour
    (order : IsOrderAmong precedes IsAmong)
    {first second third fourth : Item}
    (among : ∀ item ∈ [first, second, third, fourth], IsAmong item) :
    Ends (ComparisonFails precedes IsAmong) (Sorts precedes [first, second, third, fourth])
      (sortFour precedes first second third fourth) := by
  have isFirst : IsAmong first := among first (by simp)
  have isSecond : IsAmong second := among second (by simp)
  have isThird : IsAmong third := among third (by simp)
  have isFourth : IsAmong fourth := among fourth (by simp)
  refine (ends_comparison isSecond isFirst).bind fun swapped answers => ?_
  split
  rename_i low high isPair
  have pair := sorts_of_swap order isFirst isSecond answers isPair
  refine (ends_comparison isFourth isThird).bind fun otherSwapped otherAnswers => ?_
  split
  rename_i otherLow otherHigh isOtherPair
  have otherPair := sorts_of_swap order isThird isFourth otherAnswers isOtherPair
  have pairs :
      StablePerm precedes [first, second, third, fourth] [low, high, otherLow, otherHigh] :=
    pair.stable.append otherPair.stable
  have areAmong := pairs.among among
  refine (ends_comparison (areAmong otherLow (by simp)) (areAmong low (by simp))).bind
    fun lowsAreSwapped lows => ?_
  refine (ends_comparison (areAmong otherHigh (by simp)) (areAmong high (by simp))).bind
    fun highsAreSwapped highs => ?_
  split
  rename_i least left right greatest isFour
  obtain ⟨moved, framed⟩ := framed_of_pairs order areAmong isFour
    (List.pairwise_pair.mp pair.ascends) (List.pairwise_pair.mp otherPair.ascends) lows highs
  have whole := pairs.trans moved
  have wholeAmong := whole.among among
  simp only [List.forall_mem_cons] at wholeAmong
  obtain ⟨isLeast, isLeft, isRight, isGreatest, -⟩ := wholeAmong
  refine (ends_comparison isRight isLeft).bind fun middleSwapped middle => ?_
  cases middleSwapped with
  | true =>
      have swappedFrame : IsFramed precedes least right left greatest :=
        ⟨framed.least_right, framed.least_left, framed.right_greatest, framed.left_greatest⟩
      exact .ok ⟨whole.trans (.cons least (.swap middle [greatest])),
        swappedFrame.ascends order isLeast isRight isGreatest
          (order.isNotAfter_of_isBefore isRight isLeft middle)⟩
  | false => exact .ok ⟨whole, framed.ascends order isLeast isLeft isGreatest middle⟩

/-- The start of a half is sorted, and the values that follow it are left as they are. -/
theorem ends_startOfHalf
    (order : IsOrderAmong precedes IsAmong)
    (withFour : Bool)
    {values : List Item}
    (among : ∀ item ∈ values, IsAmong item) :
    Ends (ComparisonFails precedes IsAmong)
      (fun parts => StablePerm precedes values (parts.1.reverse ++ parts.2) ∧
        Ascends precedes parts.1.reverse)
      (startOfHalf precedes withFour values) := by
  unfold startOfHalf
  split
  · rename_i first second third fourth others
    split
    · have firstAmong : ∀ item ∈ [first, second, third, fourth], IsAmong item :=
        fun item isItem => among item (List.mem_append_left others isItem)
      refine (ends_sortFour order firstAmong).bind fun sorted sorts => .ok ?_
      rw [List.reverse_reverse]
      exact ⟨sorts.stable.append_right others, sorts.ascends⟩
    · exact .ok ⟨.refl _, .nil⟩
  · exact .ok ⟨.refl _, .nil⟩

/-- A half is sorted by insertion from its start. -/
theorem ends_insertAll_of_startOfHalf
    (order : IsOrderAmong precedes IsAmong)
    {values : List Item}
    {parts : List Item × List Item}
    (among : ∀ item ∈ values, IsAmong item)
    (starts : StablePerm precedes values (parts.1.reverse ++ parts.2) ∧
      Ascends precedes parts.1.reverse) :
    Ends (ComparisonFails precedes IsAmong) (fun inserted => Sorts precedes values inserted.reverse)
      (insertAll precedes parts.1 parts.2) := by
  exact (ends_insertAll order parts.1 parts.2 (starts.1.among among) starts.2).mono
    fun inserted sorts => .of_stablePerm starts.1 sorts

/-- A short list is sorted. -/
theorem ends_sortShort
    [HasDisorder Failure]
    (order : IsOrderAmong precedes IsAmong)
    {values : List Item}
    (among : ∀ item ∈ values, IsAmong item) :
    Ends (ComparisonFails precedes IsAmong) (Sorts precedes values)
      (sortShort precedes values) := by
  have leftAmong : ∀ item ∈ values.take (values.length / 2), IsAmong item := fun item isItem =>
    among item (List.mem_of_mem_take isItem)
  have rightAmong : ∀ item ∈ values.drop (values.length / 2), IsAmong item := fun item isItem =>
    among item (List.mem_of_mem_drop isItem)
  unfold sortShort
  refine (ends_startOfHalf order _ leftAmong).bind fun left leftStarts => ?_
  refine (ends_startOfHalf order _ rightAmong).bind fun right rightStarts => ?_
  refine (ends_insertAll_of_startOfHalf order leftAmong leftStarts).bind fun lefts leftSorts => ?_
  refine (ends_insertAll_of_startOfHalf order rightAmong rightStarts).bind ?_
  intro rights rightSorts
  have halves := leftSorts.stable.append rightSorts.stable
  rw [List.take_append_drop] at halves
  exact (ends_mergeFromEnds order (leftSorts.among leftAmong) (rightSorts.among rightAmong)
    leftSorts.ascends rightSorts.ascends).mono fun merged sorts => .of_stablePerm halves sorts

/-! ## Runs -/

/--
A run that goes on takes the next values of the list, as long as each of them compares with those
before it as the run does.
-/
theorem ends_extendRun
    (order : IsOrderAmong precedes IsAmong)
    (descends : Bool)
    (last : Item)
    (passed others : List Item)
    (among : ∀ item ∈ last :: passed ++ others, IsAmong item)
    (directed : (last :: passed).Pairwise (precedes · · = .ok descends)) :
    Ends (ComparisonFails precedes IsAmong)
      (fun run => ∃ count, run = (others.take count).reverse ++ last :: passed ∧
        run.Pairwise (precedes · · = .ok descends))
      (extendRun precedes descends last (last :: passed) others) := by
  induction others generalizing last passed with
  | nil => exact .ok ⟨0, rfl, directed⟩
  | cons next others inductionHypothesis =>
      have isLast : IsAmong last := among last (by simp)
      have isNext : IsAmong next := among next (by simp)
      refine (ends_comparison isNext isLast).bind fun answer answers => ?_
      split
      · rename_i isSame
        rw [isSame] at answers
        -- Only the last value is compared with the next one, and the order hands its answer on.
        have isDirected : ∀ item ∈ last :: passed, precedes next item = .ok descends := by
          rw [List.forall_mem_cons]
          refine ⟨answers, fun item isItem => ?_⟩
          exact order.answer_trans isNext isLast (among item (by simp [isItem])) answers
            ((List.pairwise_cons.mp directed).1 item isItem)
        have stillAmong : ∀ item ∈ next :: last :: passed ++ others, IsAmong item :=
          fun item isItem => among item (by simp at isItem ⊢; tauto)
        refine (inductionHypothesis next (last :: passed) stillAmong
          (directed.cons isDirected)).mono fun run => ?_
        rintro ⟨count, rfl, runDirected⟩
        exact ⟨count + 1, by simp, runDirected⟩
      · exact .ok ⟨0, rfl, directed⟩

/-- The values that a list starts with are sorted, as many as there are. -/
def SortsStart
    (precedes : Comparison Failure Item)
    (values sorted : List Item) : Prop :=
  Sorts precedes (values.take sorted.length) sorted

/-- The values that a list starts with are sorted if some of its first values are. -/
theorem SortsStart.of_take
    {values sorted : List Item}
    {count : Nat}
    (sorts : Sorts precedes (values.take count) sorted) :
    SortsStart precedes values sorted := by
  have length := sorts.stable.perm.length_eq
  rw [List.length_take] at length
  rwa [SortsStart, ← length, ← List.take_eq_take_min]

/-- A leading run is sorted. -/
theorem ends_leadingRun
    (order : IsOrderAmong precedes IsAmong)
    {values : List Item}
    (among : ∀ item ∈ values, IsAmong item) :
    Ends (ComparisonFails precedes IsAmong) (SortsStart precedes values)
      (leadingRun precedes values) := by
  match values with
  | [] => exact .ok ⟨.refl _, .nil⟩
  | [value] => exact .ok ⟨.refl _, List.pairwise_singleton _ value⟩
  | first :: second :: others =>
      rw [leadingRun]
      refine (ends_comparison (among second (by simp)) (among first (by simp))).bind ?_
      intro descends answers
      refine (ends_extendRun order descends second [first] others
        (fun item isItem => among item (by simp at isItem ⊢; tauto))
        (List.pairwise_pair.mpr answers)).bind fun taken found => ?_
      obtain ⟨count, isTaken, directed⟩ := found
      have whole : taken.reverse = (first :: second :: others).take (count + 2) := by
        simp [isTaken]
      have takenAmong : ∀ item ∈ taken, IsAmong item := fun item isItem =>
        among item (List.mem_of_mem_take (whole ▸ List.mem_reverse.mpr isItem))
      have sorts : Sorts precedes ((first :: second :: others).take (count + 2))
          (if descends then taken else taken.reverse) := by
        rw [← whole]
        cases descends with
        | true =>
            refine ⟨?_, directed.imp_of_mem fun isLeft isRight before =>
              order.isNotAfter_of_isBefore (takenAmong _ isLeft) (takenAmong _ isRight) before⟩
            simpa using StablePerm.reverse (List.pairwise_reverse.mpr directed)
        | false => exact ⟨.refl _, List.pairwise_reverse.mpr directed⟩
      exact .ok (.of_take sorts)

/-- A run of a list that is marked as sorted is sorted. -/
def Run.IsOrdered
    (precedes : Comparison Failure Item)
    (run : Run Item) : Prop :=
  run.isSorted = true → Ascends precedes run.values

/-- A run of a list is a stable rearrangement of the values that the list starts with. -/
structure Run.StartsStable
    (precedes : Comparison Failure Item)
    (run : Run Item)
    (values : List Item) : Prop where
  /-- The run rearranges the start of the list. -/
  stable : StablePerm precedes (values.take run.values.length) run.values
  /-- The run is sorted if it is marked so. -/
  isOrdered : run.IsOrdered precedes

/-- What is sorted at the start of a list is a run of it. -/
theorem SortsStart.startsStable
    {values sorted : List Item}
    (sorts : SortsStart precedes values sorted) :
    Run.StartsStable precedes ⟨sorted, true⟩ values :=
  ⟨sorts.stable, fun _ => sorts.ascends⟩

/-- The next run is a stable rearrangement of the values that the list starts with. -/
theorem ends_nextRun
    [HasDisorder Failure]
    (order : IsOrderAmong precedes IsAmong)
    (isEager : Bool)
    (minimum : Nat)
    {values : List Item}
    (among : ∀ item ∈ values, IsAmong item) :
    Ends (ComparisonFails precedes IsAmong) (Run.StartsStable precedes · values)
      (nextRun precedes isEager minimum values) := by
  have finishes (found : List Item) (sorts : SortsStart precedes values found) :
      Ends (ComparisonFails precedes IsAmong) (Run.StartsStable precedes · values)
        (if minimum ≤ found.length then return ⟨found, true⟩
        else if isEager then do
          return ⟨← sortShort precedes (values.take maxShortLength), true⟩
        else return ⟨values.take minimum, false⟩) := by
    split
    · exact .ok sorts.startsStable
    · split
      · have startAmong : ∀ item ∈ values.take maxShortLength, IsAmong item := fun item isItem =>
          among item (List.mem_of_mem_take isItem)
        exact (ends_sortShort order startAmong).bind fun sorted sorts =>
          .ok (SortsStart.of_take sorts).startsStable
      · refine .ok ⟨?_, nofun⟩
        rw [List.length_take, ← List.take_eq_take_min]
        exact .refl _
  simp only [nextRun]
  by_cases long : minimum ≤ values.length
  · rw [if_pos long]
    exact (ends_leadingRun order among).bind finishes
  · rw [if_neg long]
    exact finishes [] ⟨.refl _, .nil⟩

section Joining

variable
  {sortStretch : List Item → Except Failure (List Item)}
  (order : IsOrderAmong precedes IsAmong)
  (stretchEnds : ∀ values : List Item, (∀ item ∈ values, IsAmong item) →
    Ends (ComparisonFails precedes IsAmong) (Sorts precedes values) (sortStretch values))

include stretchEnds

/-- The values of a run are sorted. -/
theorem Run.ends_sorted
    {run : Run Item}
    (among : ∀ item ∈ run.values, IsAmong item)
    (isOrdered : run.IsOrdered precedes) :
    Ends (ComparisonFails precedes IsAmong) (Sorts precedes run.values)
      (run.sorted sortStretch) := by
  unfold Run.sorted
  split
  · rename_i isSorted
    exact .ok ⟨.refl _, isOrdered isSorted⟩
  · exact stretchEnds run.values among

include order

/-- Joined runs are a run of the values of both. -/
theorem Run.ends_join
    {left right : Run Item}
    (among : ∀ item ∈ left.values ++ right.values, IsAmong item)
    (leftIsOrdered : left.IsOrdered precedes)
    (rightIsOrdered : right.IsOrdered precedes) :
    Ends (ComparisonFails precedes IsAmong)
      (fun joined => StablePerm precedes (left.values ++ right.values) joined.values ∧
        joined.IsOrdered precedes)
      (left.join precedes sortStretch right) := by
  rw [List.forall_mem_append] at among
  unfold Run.join
  split
  · refine (Run.ends_sorted stretchEnds among.1 leftIsOrdered).bind fun lefts leftSorts => ?_
    refine (Run.ends_sorted stretchEnds among.2 rightIsOrdered).bind fun rights rightSorts => ?_
    refine (ends_merge order (leftSorts.among among.1) (rightSorts.among among.2)
      leftSorts.ascends rightSorts.ascends).bind fun merged sorts => .ok ?_
    exact ⟨(leftSorts.stable.append rightSorts.stable).trans sorts.stable, fun _ => sorts.ascends⟩
  · exact .ok ⟨.refl _, nofun⟩

omit order stretchEnds in
/-- The values of pending runs in the order of the list. -/
def valuesInOrder (pending : List (Nat × Run Item)) : List Item :=
  pendingValues pending.reverse

omit order stretchEnds in
/-- The last pending run stands behind the others. -/
theorem valuesInOrder_cons
    (height : Nat)
    (left : Run Item)
    (pending : List (Nat × Run Item)) :
    valuesInOrder ((height, left) :: pending) = valuesInOrder pending ++ left.values := by
  simp [valuesInOrder, pendingValues]

/-- Joining a run with the last pending one rearranges the values behind the other runs. -/
theorem Run.ends_join_pending
    (height : Nat)
    (pending : List (Nat × Run Item))
    {left run : Run Item}
    (among : ∀ item ∈ valuesInOrder ((height, left) :: pending) ++ run.values, IsAmong item)
    (leftIsOrdered : left.IsOrdered precedes)
    (isOrdered : run.IsOrdered precedes) :
    Ends (ComparisonFails precedes IsAmong)
      (fun joined => StablePerm precedes (valuesInOrder ((height, left) :: pending) ++ run.values)
          (valuesInOrder pending ++ joined.values) ∧ joined.IsOrdered precedes)
      (left.join precedes sortStretch run) := by
  rw [valuesInOrder_cons, List.append_assoc] at among ⊢
  refine (Run.ends_join order stretchEnds (List.forall_mem_append.mp among).2 leftIsOrdered
    isOrdered).mono fun joined joins => ?_
  exact ⟨joins.1.append_left (valuesInOrder pending), joins.2⟩

/-- Runs that collapse keep the order of their values, up to a stable rearrangement. -/
theorem ends_collapse
    (height : Nat)
    (pending : List (Nat × Run Item))
    (run : Run Item)
    (among : ∀ item ∈ valuesInOrder pending ++ run.values, IsAmong item)
    (areOrdered : ∀ entry ∈ pending, entry.2.IsOrdered precedes)
    (isOrdered : run.IsOrdered precedes) :
    Ends (ComparisonFails precedes IsAmong)
      (fun result => StablePerm precedes (valuesInOrder pending ++ run.values)
          (valuesInOrder result.1 ++ result.2.values) ∧
        (∀ entry ∈ result.1, entry.2.IsOrdered precedes) ∧ result.2.IsOrdered precedes)
      (collapse precedes sortStretch height pending run) := by
  induction pending generalizing run with
  | nil => exact .ok ⟨.refl _, nofun, isOrdered⟩
  | cons entry pending inductionHypothesis =>
      obtain ⟨pendingHeight, left⟩ := entry
      rw [collapse]
      split
      · rw [List.forall_mem_cons] at areOrdered
        refine (Run.ends_join_pending order stretchEnds _ pending among areOrdered.1
          isOrdered).bind fun joined joins => ?_
        exact (inductionHypothesis joined (joins.1.among among) areOrdered.2 joins.2).mono
          fun result collapsed => ⟨joins.1.trans collapsed.1, collapsed.2⟩
      · exact .ok ⟨.refl _, areOrdered, isOrdered⟩

/-- Pending runs that are joined are a run of all their values. -/
theorem ends_joinPending
    (pending : List (Nat × Run Item))
    (last : Run Item)
    (among : ∀ item ∈ valuesInOrder pending ++ last.values, IsAmong item)
    (areOrdered : ∀ entry ∈ pending, entry.2.IsOrdered precedes)
    (isOrdered : last.IsOrdered precedes) :
    Ends (ComparisonFails precedes IsAmong)
      (fun whole => StablePerm precedes (valuesInOrder pending ++ last.values) whole.values ∧
        whole.IsOrdered precedes)
      (pending.foldlM (fun run entry => entry.2.join precedes sortStretch run) last) := by
  induction pending generalizing last with
  | nil => exact .ok ⟨.refl _, isOrdered⟩
  | cons entry pending inductionHypothesis =>
      obtain ⟨height, left⟩ := entry
      rw [List.forall_mem_cons] at areOrdered
      rw [List.foldlM_cons]
      refine (Run.ends_join_pending order stretchEnds height pending among areOrdered.1
        isOrdered).bind fun joined joins => ?_
      exact (inductionHypothesis joined (joins.1.among among) areOrdered.2 joins.2).mono
        fun whole joinsAll => ⟨joins.1.trans joinsAll.1, joinsAll.2⟩

/-- Cutting the rest of a list into runs and joining them sorts the list. -/
theorem ends_joinRuns
    [HasDisorder Failure]
    {minimum : Nat}
    (positive : 0 < minimum)
    (isEager : Bool)
    (length start : Nat)
    (pending : List (Nat × Run Item))
    (last : Run Item)
    (rest : List Item)
    (among : ∀ item ∈ valuesInOrder pending ++ last.values ++ rest, IsAmong item)
    (areOrdered : ∀ entry ∈ pending, entry.2.IsOrdered precedes)
    (isOrdered : last.IsOrdered precedes) :
    Ends (ComparisonFails precedes IsAmong)
      (Sorts precedes (valuesInOrder pending ++ last.values ++ rest))
      (joinRuns precedes sortStretch isEager length minimum start pending last rest) := by
  match rest with
  | [] =>
      rw [List.append_nil] at among
      rw [joinRuns, List.append_nil]
      refine (ends_joinPending order stretchEnds pending last among areOrdered isOrdered).bind ?_
      intro whole joins
      exact (Run.ends_sorted stretchEnds (joins.1.among among) joins.2).mono fun sorted sorts =>
        .of_stablePerm joins.1 sorts
  | first :: others =>
      rw [List.forall_mem_append] at among
      rw [joinRuns]
      have starts : Ends (ComparisonFails precedes IsAmong)
          (fun run => run.Starts (first :: others) ∧ run.StartsStable precedes (first :: others))
          (nextRun precedes isEager minimum (first :: others)) :=
        (ends_nextRun order isEager minimum among.2).and
          (gives_nextRun positive isEager first others)
      refine starts.bind ?_
      rintro next ⟨nextStarts, nextStable⟩
      refine (ends_collapse order stretchEnds _ pending last among.1 areOrdered isOrdered).bind ?_
      rintro ⟨left, joined⟩ ⟨collapsed, leftAreOrdered, joinedIsOrdered⟩
      simp only [nextStarts.drop_eq]
      have moved : StablePerm precedes (valuesInOrder pending ++ last.values ++ first :: others)
          (valuesInOrder ((joinHeight length start (start + last.values.length)
            (start + last.values.length + next.values.length), joined) :: left) ++ next.values ++
              (first :: others).drop next.values.length) := by
        have parted := nextStable.stable.append_right ((first :: others).drop next.values.length)
        rw [List.take_append_drop] at parted
        rw [valuesInOrder_cons, List.append_assoc _ next.values]
        exact collapsed.append parted
      exact (ends_joinRuns positive isEager length _ _ next _
        (moved.among (List.forall_mem_append.mpr among))
        (List.forall_mem_cons.mpr ⟨joinedIsOrdered, leftAreOrdered⟩)
        nextStable.isOrdered).mono fun sorted sorts => .of_stablePerm moved sorts
termination_by rest.length
decreasing_by
  have nonempty := nextStarts.nonempty
  simp only [List.length_drop, List.length_cons]
  omega

/-- Sorting by runs sorts. -/
theorem ends_sortByRuns
    [HasDisorder Failure]
    (isEager : Bool)
    {values : List Item}
    (among : ∀ item ∈ values, IsAmong item) :
    Ends (ComparisonFails precedes IsAmong) (Sorts precedes values)
      (sortByRuns precedes sortStretch isEager values) := by
  cases values with
  | nil => exact .ok ⟨.refl _, .nil⟩
  | cons first others =>
      have positive : 0 < minRunLength (others.length + 1) := minRunLength_pos (by omega)
      have starts := (ends_nextRun order isEager (minRunLength (others.length + 1)) among).and
        (gives_nextRun positive isEager first others)
      refine starts.bind ?_
      rintro run ⟨runStarts, runStable⟩
      simp only [runStarts.drop_eq]
      have parted := runStable.stable.append_right ((first :: others).drop run.values.length)
      rw [List.take_append_drop] at parted
      exact (ends_joinRuns order stretchEnds positive isEager _ 0 [] run _ (parted.among among)
        nofun runStable.isOrdered).mono fun sorted sorts => .of_stablePerm parted sorts

end Joining

end Sorting
end TemplatedMarkup
