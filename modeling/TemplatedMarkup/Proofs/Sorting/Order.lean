import TemplatedMarkup.Proofs.Outcome
import TemplatedMarkup.Sorting.Insertion

/-!
# Orders and stable rearrangements

A comparison may order the values of a kind without having an answer for all of them.  A stable
sort swaps neighbours that are out of order, and no others; whatever has no strict order keeps its
place among its like.
-/

namespace TemplatedMarkup
namespace Sorting

variable
  {Failure Item : Type}
  {precedes : Comparison Failure Item}
  {IsAmong : Item → Prop}

/-! ## Orders -/

/-- A value comes strictly before another one. -/
def IsBefore (precedes : Comparison Failure Item) (left right : Item) : Prop :=
  precedes left right = .ok true

/-- A value may stand in front of another one, which does not come before it. -/
def IsNotAfter (precedes : Comparison Failure Item) (left right : Item) : Prop :=
  precedes right left = .ok false

/-- A comparison orders the values of a kind, as far as it has answers for them. -/
structure IsOrderAmong
    (precedes : Comparison Failure Item)
    (IsAmong : Item → Prop) : Prop where
  /-- What has an order to something has one to itself, and does not precede itself. -/
  self
    {left right : Item}
    {answer : Bool}
    (isLeft : IsAmong left)
    (isRight : IsAmong right)
    (answers : precedes left right = .ok answer) :
    precedes left left = .ok false
  /-- An answer comes with one for the other way round, which is not yes as well. -/
  back
    {left right : Item}
    {answer : Bool}
    (isLeft : IsAmong left)
    (isRight : IsAmong right)
    (answers : precedes left right = .ok answer) :
    ∃ backAnswer, precedes right left = .ok backAnswer ∧ (answer = true → backAnswer = false)
  /-- What may stand in front of a value may stand in front of all that may follow it. -/
  trans
    {left middle right : Item}
    (isLeft : IsAmong left)
    (isMiddle : IsAmong middle)
    (isRight : IsAmong right)
    (first : IsNotAfter precedes left middle)
    (second : IsNotAfter precedes middle right) :
    IsNotAfter precedes left right

/-- A failure of a comparison of two values of a kind. -/
def ComparisonFails
    (precedes : Comparison Failure Item)
    (IsAmong : Item → Prop)
    (cause : Failure) : Prop :=
  ∃ left right, IsAmong left ∧ IsAmong right ∧ precedes left right = .error cause

/-- A comparison of two values of a kind has the answer that it gives. -/
theorem ends_comparison
    {left right : Item}
    (isLeft : IsAmong left)
    (isRight : IsAmong right) :
    Ends (ComparisonFails precedes IsAmong) (precedes left right = .ok ·) (precedes left right) :=
  ⟨fun _ fails => ⟨left, right, isLeft, isRight, fails⟩, fun _ answers => answers⟩

namespace IsOrderAmong

variable
  {left middle right : Item}
  (order : IsOrderAmong precedes IsAmong)
  (isLeft : IsAmong left)
  (isMiddle : IsAmong middle)
  (isRight : IsAmong right)

include order isLeft isRight

theorem isNotAfter_of_isBefore (before : IsBefore precedes left right) :
    IsNotAfter precedes left right := by
  obtain ⟨backAnswer, answers, isNo⟩ := order.back isLeft isRight before
  rwa [isNo rfl] at answers

include isMiddle

theorem isBefore_of_isBefore_of_isNotAfter
    (first : IsBefore precedes left middle)
    (second : IsNotAfter precedes middle right) :
    IsBefore precedes left right := by
  have notAfter : IsNotAfter precedes left right :=
    order.trans isLeft isMiddle isRight (order.isNotAfter_of_isBefore isLeft isMiddle first) second
  obtain ⟨answer, answers, -⟩ := order.back isRight isLeft notAfter
  cases answer with
  | true => exact answers
  | false =>
      have back : IsNotAfter precedes middle left :=
        order.trans isMiddle isRight isLeft second answers
      cases back.symm.trans first

theorem isBefore_of_isNotAfter_of_isBefore
    (first : IsNotAfter precedes left middle)
    (second : IsBefore precedes middle right) :
    IsBefore precedes left right := by
  have notAfter : IsNotAfter precedes left right :=
    order.trans isLeft isMiddle isRight first (order.isNotAfter_of_isBefore isMiddle isRight second)
  obtain ⟨answer, answers, -⟩ := order.back isRight isLeft notAfter
  cases answer with
  | true => exact answers
  | false =>
      have back : IsNotAfter precedes right middle :=
        order.trans isRight isLeft isMiddle answers first
      cases back.symm.trans second

/-- Equal answers along a row of values are the answer for its ends. -/
theorem answer_trans
    {answer : Bool}
    (first : precedes left middle = .ok answer)
    (second : precedes middle right = .ok answer) :
    precedes left right = .ok answer := by
  cases answer with
  | true =>
      exact order.isBefore_of_isBefore_of_isNotAfter isLeft isMiddle isRight first
        (order.isNotAfter_of_isBefore isMiddle isRight second)
  | false => exact order.trans isRight isMiddle isLeft second first

end IsOrderAmong

/-- An order of the values of a kind orders the values of each kind that it includes. -/
theorem IsOrderAmong.of_imp
    {IsOther : Item → Prop}
    (order : IsOrderAmong precedes IsAmong)
    (includes : ∀ value, IsOther value → IsAmong value) :
    IsOrderAmong precedes IsOther where
  self isLeft isRight answers := order.self (includes _ isLeft) (includes _ isRight) answers
  back isLeft isRight answers := order.back (includes _ isLeft) (includes _ isRight) answers
  trans isLeft isMiddle isRight first second :=
    order.trans (includes _ isLeft) (includes _ isMiddle) (includes _ isRight) first second

/-- The comparison of two values the other way round. -/
def opposite (precedes : Comparison Failure Item) : Comparison Failure Item :=
  fun left right => precedes right left

@[simp] theorem opposite_opposite (precedes : Comparison Failure Item) :
    opposite (opposite precedes) = precedes :=
  rfl

/-- The other way round, an order is an order. -/
theorem IsOrderAmong.opposite (order : IsOrderAmong precedes IsAmong) :
    IsOrderAmong (opposite precedes) IsAmong where
  self isLeft isRight answers := by
    obtain ⟨backAnswer, answersBack, -⟩ := order.back isRight isLeft answers
    exact order.self isLeft isRight answersBack
  back isLeft isRight answers := order.back isRight isLeft answers
  trans isLeft isMiddle isRight first second := order.trans isRight isMiddle isLeft second first

/-! ## Stable rearrangements -/

/-- A list is rearranged by swapping neighbours of which the second one comes before the first. -/
inductive StablePerm (precedes : Comparison Failure Item) : List Item → List Item → Prop where
  | refl (values : List Item) : StablePerm precedes values values
  | cons
      (value : Item)
      {values rearranged : List Item}
      (rest : StablePerm precedes values rearranged) :
      StablePerm precedes (value :: values) (value :: rearranged)
  | swap
      {first second : Item}
      (isBefore : IsBefore precedes second first)
      (values : List Item) :
      StablePerm precedes (first :: second :: values) (second :: first :: values)
  | trans
      {values between rearranged : List Item}
      (first : StablePerm precedes values between)
      (second : StablePerm precedes between rearranged) :
      StablePerm precedes values rearranged

namespace StablePerm

variable {values rearranged others otherRearranged : List Item}

/-- A stable rearrangement is a rearrangement. -/
theorem perm (stable : StablePerm precedes values rearranged) : values.Perm rearranged := by
  induction stable with
  | refl values => exact .refl values
  | cons value rest inductionHypothesis => exact inductionHypothesis.cons value
  | swap isBefore values => exact .swap _ _ values
  | trans first second firstPerm secondPerm => exact firstPerm.trans secondPerm

/-- A stable rearrangement of values of a kind has values of that kind. -/
theorem among
    (stable : StablePerm precedes values rearranged)
    (among : ∀ value ∈ values, IsAmong value) :
    ∀ value ∈ rearranged, IsAmong value :=
  fun value isValue => among value (stable.perm.mem_iff.mpr isValue)

/-- Values none of which comes before another one keep their order. -/
theorem filter_eq
    {test : Item → Bool}
    (stable : StablePerm precedes values rearranged)
    (unordered : ∀ left right, left ∈ values → right ∈ values → test left = true →
      test right = true → ¬IsBefore precedes left right) :
    rearranged.filter test = values.filter test := by
  induction stable with
  | refl values => rfl
  | cons value rest inductionHypothesis =>
      rw [List.filter_cons, List.filter_cons, inductionHypothesis fun left right isLeft isRight =>
        unordered left right (List.mem_cons_of_mem _ isLeft) (List.mem_cons_of_mem _ isRight)]
  | @swap first second isBefore values =>
      have notBoth : ¬(test second = true ∧ test first = true) := fun passes =>
        unordered second first (by simp) (by simp) passes.1 passes.2 isBefore
      simp only [List.filter_cons]
      grind
  | trans first second firstSame secondSame =>
      rw [secondSame fun left right isLeft isRight => unordered left right
        (first.perm.mem_iff.mpr isLeft) (first.perm.mem_iff.mpr isRight), firstSame unordered]

theorem append_left (front : List Item) (stable : StablePerm precedes values rearranged) :
    StablePerm precedes (front ++ values) (front ++ rearranged) := by
  induction front with
  | nil => exact stable
  | cons value front inductionHypothesis => exact .cons value inductionHypothesis

theorem append_right (rest : List Item) (stable : StablePerm precedes values rearranged) :
    StablePerm precedes (values ++ rest) (rearranged ++ rest) := by
  induction stable with
  | refl values => exact .refl _
  | cons value _ inductionHypothesis => exact .cons value inductionHypothesis
  | swap isBefore values => exact .swap isBefore _
  | trans _ _ first second => exact first.trans second

theorem append
    (stable : StablePerm precedes values rearranged)
    (otherStable : StablePerm precedes others otherRearranged) :
    StablePerm precedes (values ++ others) (rearranged ++ otherRearranged) :=
  (stable.append_right others).trans (otherStable.append_left rearranged)

/-- A value moves in front of all the values that it comes before. -/
theorem move_front
    {value : Item}
    (isBefore : ∀ other ∈ values, IsBefore precedes value other) :
    StablePerm precedes (values ++ [value]) (value :: values) := by
  induction values with
  | nil => exact .refl _
  | cons other values inductionHypothesis =>
      rw [List.forall_mem_cons] at isBefore
      exact (cons other (inductionHypothesis isBefore.2)).trans (.swap isBefore.1 values)

/-- A list moves in front of another one if all its values come before all values of that one. -/
theorem append_comm
    (areBefore : ∀ value ∈ others, ∀ other ∈ values, IsBefore precedes value other) :
    StablePerm precedes (values ++ others) (others ++ values) := by
  induction others with
  | nil => rw [List.append_nil, List.nil_append]; exact .refl _
  | cons value others inductionHypothesis =>
      rw [List.forall_mem_cons] at areBefore
      have moved := (move_front areBefore.1).append_right others
      rw [List.append_assoc] at moved
      exact moved.trans (.cons value (inductionHypothesis areBefore.2))

/-- The values that pass a test move in front, if they come before those that do not. -/
theorem filter_append
    {test : Item → Bool}
    (areBefore : ∀ left ∈ values, ∀ right ∈ values, test left = true → test right = false →
      IsBefore precedes left right) :
    StablePerm precedes values (values.filter test ++ values.filter (!test ·)) := by
  induction values with
  | nil => exact .refl _
  | cons value values inductionHypothesis =>
      have rest := inductionHypothesis fun left isLeft right isRight =>
        areBefore left (List.mem_cons_of_mem _ isLeft) right (List.mem_cons_of_mem _ isRight)
      cases passes : test value with
      | true => simpa [passes] using cons value rest
      | false =>
          have moved : StablePerm precedes ([value] ++ values.filter test)
              (values.filter test ++ [value]) := by
            refine append_comm fun passing isPassing other isOther => ?_
            obtain rfl := List.mem_singleton.mp isOther
            have ⟨among, passed⟩ := List.mem_filter.mp isPassing
            exact areBefore passing (List.mem_cons_of_mem _ among) other (by simp) passed passes
          have parted := (cons value rest).trans (moved.append_right (values.filter (!test ·)))
          simpa [passes] using parted

/-- Values each of which comes before the ones in front of it may be reversed. -/
theorem reverse
    (descends : values.Pairwise fun earlier later => IsBefore precedes later earlier) :
    StablePerm precedes values values.reverse := by
  induction values with
  | nil => exact .refl _
  | cons value values inductionHypothesis =>
      rw [List.pairwise_cons] at descends
      rw [List.reverse_cons]
      have moved : StablePerm precedes ([value] ++ values.reverse) (values.reverse ++ [value]) := by
        refine append_comm fun later isLater other isOther => ?_
        obtain rfl := List.mem_singleton.mp isOther
        exact descends.1 later (List.mem_reverse.mp isLater)
      exact (cons value (inductionHypothesis descends.2)).trans moved

/-- Read from the back, a stable rearrangement is one by the opposite order. -/
theorem of_opposite (stable : StablePerm (opposite precedes) values rearranged) :
    StablePerm precedes values.reverse rearranged.reverse := by
  induction stable with
  | refl values => exact .refl _
  | cons value _ inductionHypothesis =>
      rw [List.reverse_cons, List.reverse_cons]
      exact inductionHypothesis.append_right [value]
  | @swap first second isBefore values =>
      simp only [List.reverse_cons, List.append_assoc]
      have isBefore : IsBefore precedes first second := isBefore
      exact (swap isBefore []).append_left values.reverse
  | trans _ _ first second => exact first.trans second

end StablePerm

/-! ## Sorted lists -/

/-- No value of a list comes before one in front of it. -/
def Ascends (precedes : Comparison Failure Item) (values : List Item) : Prop :=
  values.Pairwise (IsNotAfter precedes)

/-- A list is a stable rearrangement of another one, in ascending order. -/
structure Sorts
    (precedes : Comparison Failure Item)
    (values sorted : List Item) : Prop where
  /-- The list is a stable rearrangement. -/
  stable : StablePerm precedes values sorted
  /-- The list is in ascending order. -/
  ascends : Ascends precedes sorted

namespace Sorts

variable {values between sorted : List Item}

/-- A kind of values has the values of a sorted list if it has those of the list. -/
theorem among
    (sorts : Sorts precedes values sorted)
    (among : ∀ value ∈ values, IsAmong value) :
    ∀ value ∈ sorted, IsAmong value :=
  sorts.stable.among among

/-- What sorts a stable rearrangement of a list sorts the list. -/
theorem of_stablePerm
    (stable : StablePerm precedes values between)
    (sorts : Sorts precedes between sorted) :
    Sorts precedes values sorted :=
  ⟨stable.trans sorts.stable, sorts.ascends⟩

/-- Read from the back, a list sorted by the opposite order is sorted. -/
theorem of_opposite (sorts : Sorts (opposite precedes) values sorted) :
    Sorts precedes values.reverse sorted.reverse :=
  ⟨sorts.stable.of_opposite, List.pairwise_reverse.mpr sorts.ascends⟩

end Sorts

end Sorting
end TemplatedMarkup
