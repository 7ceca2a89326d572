import TemplatedMarkup.Proofs.Sorting.Merge
import TemplatedMarkup.Sorting.Stable

/-!
# Sorting rearranges

The result of a sort has the values of the list, each as often as the list has it.  This holds
whatever the comparison answers, be it an order or not.
-/

namespace TemplatedMarkup
namespace Sorting

variable
  {Failure Item : Type}
  {precedes : Comparison Failure Item}

/-! ## Short lists -/

/-- Two values that may be swapped are the same two. -/
theorem perm_of_swap
    {swapped : Bool}
    {first second low high : Item}
    (isPair : (if swapped then (second, first) else (first, second)) = (low, high)) :
    [low, high].Perm [first, second] := by
  split at isPair
  · cases isPair
    exact .swap first second []
  · cases isPair
    exact .refl _

/-- Four values are put in some order. -/
theorem gives_sortFour (first second third fourth : Item) :
    Gives (·.Perm [first, second, third, fourth])
      (sortFour precedes first second third fourth) := by
  refine (Gives.any _).bind fun firstSwapped _ => ?_
  split
  rename_i low high isPair
  refine (Gives.any _).bind fun secondSwapped _ => ?_
  split
  rename_i otherLow otherHigh isOtherPair
  have pairs : [low, high, otherLow, otherHigh].Perm [first, second, third, fourth] :=
    (perm_of_swap isPair).append (perm_of_swap isOtherPair)
  refine (Gives.any _).bind fun lowsAreSwapped _ => (Gives.any _).bind fun highsAreSwapped _ => ?_
  split
  rename_i least left right greatest isFour
  have four : [least, left, right, greatest].Perm [low, high, otherLow, otherHigh] := by
    classical
    rw [List.perm_iff_count]
    intro value
    cases lowsAreSwapped <;> cases highsAreSwapped <;> cases isFour <;>
      simp only [List.count_cons] <;> omega
  refine (Gives.any _).bind fun middleSwapped _ => ?_
  split
  · have swapped : [least, right, left, greatest].Perm [least, left, right, greatest] :=
      (List.Perm.swap left right [greatest]).cons least
    exact .ok (swapped.trans (four.trans pairs))
  · exact .ok (four.trans pairs)

/-- The start of a half and what follows it are the half. -/
theorem gives_startOfHalf
    (withFour : Bool)
    (values : List Item) :
    Gives (fun parts => (parts.2 ++ parts.1).Perm values)
      (startOfHalf precedes withFour values) := by
  unfold startOfHalf
  split
  · rename_i first second third fourth others
    split
    · refine (gives_sortFour first second third fourth).bind fun sorted rearranged => .ok ?_
      have start := sorted.reverse_perm.trans rearranged
      exact List.perm_append_comm.trans (start.append_right others)
    · exact .ok (by simp)
  · exact .ok (by simp)

/-- A short list is rearranged. -/
theorem gives_sortShort
    [HasDisorder Failure]
    (values : List Item) :
    Gives (·.Perm values) (sortShort precedes values) := by
  unfold sortShort
  refine (gives_startOfHalf _ _).bind fun left leftParts => ?_
  refine (gives_startOfHalf _ _).bind fun right rightParts => ?_
  refine (gives_insertAll left.1 left.2).bind fun lefts leftRearranged => ?_
  refine (gives_insertAll right.1 right.2).bind fun rights rightRearranged => ?_
  refine (gives_mergeFromEnds lefts.reverse rights.reverse).mono fun merged rearranged => ?_
  have fromLeft := (lefts.reverse_perm.trans leftRearranged).trans leftParts
  have fromRight := (rights.reverse_perm.trans rightRearranged).trans rightParts
  calc List.Perm merged (lefts.reverse ++ rights.reverse) := rearranged
    List.Perm _ (values.take (values.length / 2) ++ values.drop (values.length / 2)) :=
        fromLeft.append fromRight
    _ = values := List.take_append_drop _ _

/-! ## Runs -/

/-- A run rearranges the values that it takes from the start of a list. -/
def Leads (run values : List Item) : Prop :=
  run.Perm (values.take run.length)

section Leads

variable {run values : List Item}

/-- A rearranged start of a list leads it. -/
theorem leads_of_perm_take
    {count : Nat}
    (rearranged : run.Perm (values.take count)) :
    Leads run values := by
  have length := rearranged.length_eq
  rw [List.length_take] at length
  rwa [Leads, length, ← List.take_eq_take_min]

/-- A run and what follows it are the list that it leads. -/
theorem Leads.append_drop
    (leads : Leads run values) :
    (run ++ values.drop run.length).Perm values := by
  calc List.Perm (run ++ values.drop run.length)
        (values.take run.length ++ values.drop run.length) := leads.append_right _
    _ = values := List.take_append_drop _ _

end Leads

/-- A run that goes on takes the next values of the list. -/
theorem gives_extendRun
    (descends : Bool)
    (last : Item)
    (taken others : List Item) :
    Gives (fun run => ∃ count, run.Perm (taken ++ others.take count))
      (extendRun precedes descends last taken others) := by
  induction others generalizing last taken with
  | nil => exact .ok ⟨0, by simp⟩
  | cons next others inductionHypothesis =>
      refine (Gives.any _).bind fun comesFirst _ => ?_
      split
      · refine (inductionHypothesis next (next :: taken)).mono fun run => ?_
        rintro ⟨count, rearranged⟩
        exact ⟨count + 1, rearranged.trans List.perm_middle.symm⟩
      · exact .ok ⟨0, by simp⟩

/-- A leading run takes the first values of the list. -/
theorem gives_leadingRun (values : List Item) :
    Gives (Leads · values) (leadingRun precedes values) := by
  unfold leadingRun
  split
  · rename_i first second others
    refine (Gives.any _).bind fun descends _ => ?_
    refine (gives_extendRun descends second [second, first] others).bind fun taken => ?_
    rintro ⟨count, rearranged⟩
    have leads : taken.Perm ((first :: second :: others).take (count + 2)) :=
      rearranged.trans (.swap first second (others.take count))
    refine .ok ?_
    split
    · exact leads_of_perm_take leads
    · exact leads_of_perm_take (taken.reverse_perm.trans leads)
  · have whole : values.Perm (values.take values.length) := by simp
    exact .ok (leads_of_perm_take whole)

/-- A run of a list takes some of its first values. -/
structure Run.Starts
    (run : Run Item)
    (values : List Item) : Prop where
  /-- The values of the run are those that the list starts with. -/
  leads : Leads run.values values
  /-- There is a value. -/
  nonempty : 0 < run.values.length

/-- The next run takes some of the first values of a list. -/
theorem gives_nextRun
    [HasDisorder Failure]
    {minimum : Nat}
    (positive : 0 < minimum)
    (isEager : Bool)
    (first : Item)
    (others : List Item) :
    Gives (·.Starts (first :: others)) (nextRun precedes isEager minimum (first :: others)) := by
  have short : Gives (Run.Starts · (first :: others))
      (if isEager then do
        return ⟨← sortShort precedes ((first :: others).take maxShortLength), true⟩
      else return ⟨(first :: others).take minimum, false⟩) := by
    split
    · refine (gives_sortShort _).bind fun sorted rearranged => .ok ?_
      refine ⟨leads_of_perm_take rearranged, ?_⟩
      rw [rearranged.length_eq, List.length_take, maxShortLength, List.length_cons]
      omega
    · refine .ok ⟨leads_of_perm_take (.refl _), ?_⟩
      rw [List.length_take, List.length_cons]
      omega
  simp only [nextRun]
  by_cases long : minimum ≤ (first :: others).length
  · rw [if_pos long]
    refine (gives_leadingRun (first :: others)).bind fun found leads => ?_
    by_cases enough : minimum ≤ found.length
    · rw [if_pos enough]
      exact .ok ⟨leads, positive.trans_le enough⟩
    · rw [if_neg enough]
      exact short
  · have nothing : ¬ minimum ≤ ([] : List Item).length := by
      rw [List.length_nil]
      omega
    rw [if_neg long, pure_bind, if_neg nothing]
    exact short

/-- What follows a run that starts a list. -/
theorem Run.Starts.drop_eq
    {run : Run Item}
    {first : Item}
    {others : List Item}
    (starts : run.Starts (first :: others)) :
    others.drop (run.values.length - 1) = (first :: others).drop run.values.length := by
  rw [← Nat.sub_add_cancel starts.nonempty, List.drop_succ_cons, Nat.add_sub_cancel]

/-- The length that a run must have is positive. -/
theorem minRunLength_pos
    {length : Nat}
    (positive : 0 < length) :
    0 < minRunLength length := by
  unfold minRunLength
  split
  · rw [fixedRunLength]
    omega
  · rename_i long
    rw [maxFixedRunLength] at long
    have digits : 1 ≤ length.log2 := (Nat.le_log2 (by omega)).mpr (by omega)
    have root : 2 ≤ 1 <<< ((1 + length.log2) / 2) := by
      rw [Nat.one_shiftLeft]
      exact Nat.le_self_pow (by omega) 2
    exact Nat.div_pos (root.trans (Nat.le_add_right _ _)) (by omega)

section Joining

variable
  {sortStretch : List Item → Except Failure (List Item)}
  (rearranges : ∀ values, Gives (·.Perm values) (sortStretch values))

include rearranges

/-- The values of a run are rearranged when they are sorted. -/
theorem Run.gives_sorted (run : Run Item) :
    Gives (·.Perm run.values) (run.sorted sortStretch) := by
  unfold Run.sorted
  split
  · exact .ok (.refl _)
  · exact rearranges run.values

/-- Joined runs have the values of both. -/
theorem Run.gives_join (left right : Run Item) :
    Gives (·.values.Perm (left.values ++ right.values))
      (left.join precedes sortStretch right) := by
  unfold Run.join
  split
  · refine (left.gives_sorted rearranges).bind fun leftValues leftRearranged => ?_
    refine (right.gives_sorted rearranges).bind fun rightValues rightRearranged => ?_
    refine (gives_merge leftValues rightValues).bind fun merged rearranged => .ok ?_
    exact rearranged.trans (leftRearranged.append rightRearranged)
  · exact .ok (.refl _)

omit rearranges in
/-- The values of pending runs. -/
def pendingValues (pending : List (Nat × Run Item)) : List Item :=
  pending.flatMap (·.2.values)

omit rearranges in
/-- The values of the last pending run may stand behind those of the others. -/
theorem perm_pendingValues_cons
    (height : Nat)
    (left : Run Item)
    (pending : List (Nat × Run Item))
    (values : List Item) :
    (pendingValues pending ++ (left.values ++ values)).Perm
      (pendingValues ((height, left) :: pending) ++ values) := by
  change List.Perm _ (left.values ++ pendingValues pending ++ values)
  rw [List.append_assoc]
  exact List.perm_append_comm_assoc (pendingValues pending) left.values values

/-- Runs that collapse keep their values. -/
theorem gives_collapse
    (height : Nat)
    (pending : List (Nat × Run Item))
    (run : Run Item) :
    Gives (fun result => (pendingValues result.1 ++ result.2.values).Perm
        (pendingValues pending ++ run.values))
      (collapse precedes sortStretch height pending run) := by
  induction pending generalizing run with
  | nil => exact .ok (.refl _)
  | cons entry pending inductionHypothesis =>
      obtain ⟨pendingHeight, left⟩ := entry
      rw [collapse]
      split
      · refine (left.gives_join rearranges run).bind fun joined rearranged => ?_
        refine (inductionHypothesis joined).mono fun result collapsed => collapsed.trans ?_
        exact (rearranged.append_left _).trans (perm_pendingValues_cons _ _ _ _)
      · exact .ok (.refl _)

/-- Pending runs that are joined keep their values. -/
theorem gives_joinPending
    (pending : List (Nat × Run Item))
    (last : Run Item) :
    Gives (·.values.Perm (pendingValues pending ++ last.values))
      (pending.foldlM (fun run entry => entry.2.join precedes sortStretch run) last) := by
  induction pending generalizing last with
  | nil => exact .ok (.refl _)
  | cons entry pending inductionHypothesis =>
      obtain ⟨height, left⟩ := entry
      rw [List.foldlM_cons]
      refine (left.gives_join rearranges last).bind fun joined rearranged => ?_
      refine (inductionHypothesis joined).mono fun result whole => whole.trans ?_
      exact (rearranged.append_left _).trans (perm_pendingValues_cons _ _ _ _)

/-- Cutting the rest of a list into runs keeps all values. -/
theorem gives_joinRuns
    [HasDisorder Failure]
    {minimum : Nat}
    (positive : 0 < minimum)
    (isEager : Bool)
    (length start : Nat)
    (pending : List (Nat × Run Item))
    (last : Run Item)
    (rest : List Item) :
    Gives (·.Perm (pendingValues pending ++ last.values ++ rest))
      (joinRuns precedes sortStretch isEager length minimum start pending last rest) := by
  match rest with
  | [] =>
      rw [joinRuns, List.append_nil]
      refine (gives_joinPending rearranges pending last).bind fun whole kept => ?_
      exact (whole.gives_sorted rearranges).mono fun sorted rearranged => rearranged.trans kept
  | first :: others =>
      rw [joinRuns]
      refine (gives_nextRun positive isEager first others).bind fun next starts => ?_
      refine (gives_collapse rearranges _ pending last).bind fun collapsed kept => ?_
      refine (gives_joinRuns positive isEager length _ _ next _).mono fun sorted rearranged => ?_
      rw [starts.drop_eq, List.append_assoc] at rearranged
      refine rearranged.trans (.append (.trans ?_ kept) starts.leads.append_drop)
      exact List.perm_append_comm
termination_by rest.length
decreasing_by
  simp only [List.length_drop, List.length_cons]
  omega

/-- Sorting by runs rearranges a list. -/
theorem gives_sortByRuns
    [HasDisorder Failure]
    (isEager : Bool)
    (values : List Item) :
    Gives (·.Perm values) (sortByRuns precedes sortStretch isEager values) := by
  cases values with
  | nil => exact .ok (.refl _)
  | cons first others =>
      have positive : 0 < minRunLength (others.length + 1) := minRunLength_pos (by omega)
      refine (gives_nextRun positive isEager first others).bind fun run starts => ?_
      refine (gives_joinRuns rearranges positive isEager _ 0 [] run _).mono
        fun sorted rearranged => ?_
      rw [starts.drop_eq] at rearranged
      exact rearranged.trans starts.leads.append_drop

end Joining

/-! ## Pivots -/

/-- Parting a list keeps its values. -/
theorem gives_partOnto
    (test : Item → Except Failure Bool)
    (passing failing values : List Item) :
    Gives (fun parts => (parts.1 ++ parts.2).Perm (passing ++ failing ++ values))
      (partOnto test passing failing values) := by
  induction values generalizing passing failing with
  | nil =>
      rw [partOnto, List.append_nil]
      exact .ok (passing.reverse_perm.append failing.reverse_perm)
  | cons value values inductionHypothesis =>
      refine (Gives.any _).bind fun passes _ => ?_
      split
      · refine (inductionHypothesis (value :: passing) failing).mono fun parts kept => kept.trans ?_
        exact List.perm_middle.symm
      · refine (inductionHypothesis passing (value :: failing)).mono fun parts kept => kept.trans ?_
        exact (List.perm_middle.append_right values).trans List.perm_middle.symm

/-- The list that a value is singled out of. -/
def Pivoted.values (list : Pivoted Item) : List Item :=
  list.before ++ list.pivot :: list.after

/-- A list with a value singled out has the same values. -/
theorem Pivoted.values_ofPosition
    (passed : List Item)
    (position : Nat)
    (first : Item)
    (others : List Item) :
    (ofPosition passed position first others).values = passed.reverse ++ first :: others := by
  induction others generalizing passed position first with
  | nil => cases position <;> rfl
  | cons second others inductionHypothesis =>
      cases position with
      | zero => rfl
      | succ position =>
          rw [ofPosition, inductionHypothesis, List.reverse_cons, List.append_assoc]
          rfl

/-- The parts of the values around a pivot are the list, wherever the pivot goes. -/
theorem Pivoted.perm_of_parts
    {list : Pivoted Item}
    {before after : List Item × List Item}
    (keptBefore : (before.1 ++ before.2).Perm list.before)
    (keptAfter : (after.1 ++ after.2).Perm list.after) :
    (before.1 ++ after.1 ++ (before.2 ++ list.pivot :: after.2)).Perm list.values := by
  classical
  rw [List.perm_iff_count] at keptBefore keptAfter ⊢
  intro value
  have inBefore := keptBefore value
  have inAfter := keptAfter value
  simp only [Pivoted.values, List.count_append, List.count_cons] at inBefore inAfter ⊢
  omega

/-- Parting a list below its pivot keeps its values. -/
theorem Pivoted.gives_partBelow (list : Pivoted Item) :
    Gives (fun parts => (parts.1 ++ parts.2).Perm list.values) (list.partBelow precedes) := by
  refine (gives_partOnto _ [] [] list.before).bind fun before keptBefore => ?_
  refine (gives_partOnto _ [] [] list.after).bind fun after keptAfter => .ok ?_
  exact perm_of_parts keptBefore keptAfter

/-- Parting a list up to its pivot keeps its values. -/
theorem Pivoted.gives_partUpTo (list : Pivoted Item) :
    Gives (fun parts => (parts.1 ++ parts.2).Perm list.values) (list.partUpTo precedes) := by
  refine (gives_partOnto _ [] [] list.before).bind fun before keptBefore => ?_
  refine (gives_partOnto _ [] [] list.after).bind fun after keptAfter => .ok ?_
  refine .trans ?_ (perm_of_parts keptBefore keptAfter)
  have moved : (after.1 ++ before.2 ++ list.pivot :: after.2).Perm
      (list.pivot :: after.1 ++ (before.2 ++ after.2)) := by
    rw [List.cons_append, ← List.append_assoc]
    exact List.perm_middle
  simpa only [List.append_assoc] using moved.symm.append_left before.1

/-- Sorting the parts around a pivot rearranges the list. -/
theorem Pivoted.gives_sortParts
    (precedes : Comparison Failure Item)
    {sortPart : Option Item → List Item → Except Failure (List Item)}
    (rearranges : ∀ ancestor values, Gives (·.Perm values) (sortPart ancestor values))
    (list : Pivoted Item)
    (ancestor : Option Item)
    {parts : List Item × List Item}
    (kept : (parts.1 ++ parts.2).Perm list.values) :
    Gives (·.Perm list.values)
      (if parts.1.isEmpty then do
        let (least, greater) ← list.partUpTo precedes
        return least ++ (← sortPart none greater)
      else do
        let upper ← sortPart (some list.pivot) parts.2
        let lower ← sortPart ancestor parts.1
        return lower ++ upper) := by
  split
  · refine list.gives_partUpTo.bind fun leastParts keptLeast => ?_
    refine (rearranges none _).bind fun sorted rearranged => .ok ?_
    exact (rearranged.append_left _).trans keptLeast
  · refine (rearranges _ parts.2).bind fun upper upperRearranged => ?_
    refine (rearranges _ parts.1).bind fun lower lowerRearranged => .ok ?_
    exact (lowerRearranged.append upperRearranged).trans kept

/-- Parting a list around a pivot, or not at all, keeps its values. -/
theorem Pivoted.gives_parted
    (precedes : Comparison Failure Item)
    {rest : List Item × List Item → Except Failure (List Item)}
    (list : Pivoted Item)
    (finishes : ∀ parts : List Item × List Item, (parts.1 ++ parts.2).Perm list.values →
      Gives (·.Perm list.values) (rest parts))
    (isLeast : Bool) :
    Gives (·.Perm list.values)
      (if isLeast then do rest (← pure ([], list.values))
      else do rest (← list.partBelow precedes)) := by
  split
  · exact finishes ([], list.values) (.refl _)
  · exact list.gives_partBelow.bind finishes

/-- Sorting by pivots rearranges a list. -/
theorem gives_sortByPivots
    [HasDisorder Failure]
    (limit : Nat)
    (ancestor : Option Item)
    (values : List Item) :
    Gives (·.Perm values) (sortByPivots precedes limit ancestor values) := by
  induction limit generalizing ancestor values with
  | zero =>
      cases values with
      | nil => exact .ok (.refl _)
      | cons first others =>
          rw [sortByPivots]
          split
          · exact gives_sortShort _
          · exact gives_sortByRuns gives_sortByInsertion true _
  | succ limit inductionHypothesis =>
      cases values with
      | nil => exact .ok (.refl _)
      | cons first others =>
          rw [sortByPivots]
          simp only
          split
          · exact gives_sortShort _
          · refine (Gives.any _).bind fun position _ => ?_
            have whole := Pivoted.values_ofPosition [] position first others
            generalize Pivoted.ofPosition [] position first others = list at whole ⊢
            rw [List.reverse_nil, List.nil_append] at whole
            rw [← whole]
            have finishes := list.gives_parted precedes fun _ =>
              list.gives_sortParts precedes inductionHypothesis ancestor
            cases ancestor with
            | none => exact (Gives.any _).bind fun isLeast _ => finishes isLeast
            | some ancestor =>
                refine (Gives.any _).bind fun comesFirst _ => ?_
                exact (Gives.any _).bind fun isLeast _ => finishes isLeast

/-- Sorting a stretch by pivots rearranges it. -/
theorem gives_sortStretch
    [HasDisorder Failure]
    (values : List Item) :
    Gives (·.Perm values) (sortStretch precedes values) :=
  gives_sortByPivots _ none values

/-- A sort rearranges its list, whatever the comparison answers. -/
theorem gives_sort
    [HasDisorder Failure]
    (values : List Item) :
    Gives (·.Perm values) (sort precedes values) := by
  unfold sort
  split
  · exact gives_sortByInsertion values
  · exact gives_sortByRuns gives_sortStretch _ values

end Sorting
end TemplatedMarkup
