import TemplatedMarkup.Sorting.Insertion

/-!
# Merging

Two sorted lists become one.  Of values without a strict order the one from the left list comes
first.  A merge goes from the front, from the back, or from both ends at once; the three differ
in the comparisons that they ask for, and agree on their result when the comparison orders the
values.  A merge from both ends can find out that it does not.
-/

namespace TemplatedMarkup
namespace Sorting

variable {Failure Item : Type}

/-- Whether the right one of two values is the smaller one. -/
def rightIsSmaller
    (precedes : Comparison Failure Item) : Comparison Failure Item :=
  fun left right => precedes right left

/-- Whether the right one of two values is the greater one; it is if neither is smaller. -/
def rightIsGreater
    (precedes : Comparison Failure Item) : Comparison Failure Item :=
  fun left right => do return !(← precedes right left)

/--
Take values off the heads of two lists and put them onto a third one, until one list is empty;
the rest of the other follows.
-/
def mergeOnto
    (takesRight : Comparison Failure Item)
    (placed : List Item) : List Item → List Item → Except Failure (List Item)
  | [], right => .ok (right.reverse ++ placed)
  | left, [] => .ok (left.reverse ++ placed)
  | leftHead :: left, rightHead :: right => do
      if ← takesRight leftHead rightHead then
        mergeOnto takesRight (rightHead :: placed) (leftHead :: left) right
      else
        mergeOnto takesRight (leftHead :: placed) left (rightHead :: right)
termination_by left right => left.length + right.length

/-- Merge two sorted lists from the front, the smallest value first. -/
def mergeFromFront
    (precedes : Comparison Failure Item)
    (left right : List Item) : Except Failure (List Item) := do
  return (← mergeOnto (rightIsSmaller precedes) [] left right).reverse

/-- Merge two sorted lists from the back, the greatest value first. -/
def mergeFromBack
    (precedes : Comparison Failure Item)
    (left right : List Item) : Except Failure (List Item) :=
  mergeOnto (rightIsGreater precedes) [] left.reverse right.reverse

/-- Merge two sorted lists, from the front unless the left one is the longer one. -/
def merge
    (precedes : Comparison Failure Item)
    (left right : List Item) : Except Failure (List Item) :=
  if left.length ≤ right.length then mergeFromFront precedes left right
  else mergeFromBack precedes left right

/-- One end of a merge: the values not yet passed on each side, and those placed, last first. -/
structure MergeEnd (Item : Type) where
  /-- The values of the left list that this end has not passed. -/
  left : List Item
  /-- The values of the right list that this end has not passed. -/
  right : List Item
  /-- The values placed at this end, last first. -/
  placed : List Item

/-- Place one more value at an end of a merge. -/
def MergeEnd.advance
    (takesRight : Comparison Failure Item) :
    MergeEnd Item → Except Failure (MergeEnd Item)
  | ⟨[], [], placed⟩ => .ok ⟨[], [], placed⟩
  | ⟨[], rightHead :: right, placed⟩ => .ok ⟨[], right, rightHead :: placed⟩
  | ⟨leftHead :: left, [], placed⟩ => .ok ⟨left, [], leftHead :: placed⟩
  | ⟨leftHead :: left, rightHead :: right, placed⟩ => do
      if ← takesRight leftHead rightHead then
        return ⟨leftHead :: left, right, rightHead :: placed⟩
      else
        return ⟨left, rightHead :: right, leftHead :: placed⟩

/-- Place values at the two ends of a merge in turn. -/
def advanceBoth
    (precedes : Comparison Failure Item) :
    Nat → MergeEnd Item → MergeEnd Item → Except Failure (MergeEnd Item × MergeEnd Item)
  | 0, front, back => .ok (front, back)
  | count + 1, front, back => do
      let front ← front.advance (rightIsSmaller precedes)
      let back ← back.advance (rightIsGreater precedes)
      advanceBoth precedes count front back

/-- Failures among which there is one for a comparison that turns out to be no order. -/
class HasDisorder (Failure : Type) where
  /-- The failure of a sort that gives up because its comparison is no order. -/
  disorder : Failure

/--
Merge two sorted lists from both ends at once, each end placing half of the values.  A value that
neither end has placed goes between them.  Ends that pass each other show that the comparison is
no order; then the sort gives up.
-/
def mergeFromEnds
    [HasDisorder Failure]
    (precedes : Comparison Failure Item)
    (left right : List Item) : Except Failure (List Item) := do
  let (front, back) ← advanceBoth precedes ((left.length + right.length) / 2)
    ⟨left, right, []⟩ ⟨left.reverse, right.reverse, []⟩
  let leftUnplaced := front.left.length + back.left.length
  let rightUnplaced := front.right.length + back.right.length
  if left.length ≤ leftUnplaced ∧ right.length ≤ rightUnplaced then
    return front.placed.reverse ++ front.left.take (leftUnplaced - left.length) ++
      front.right.take (rightUnplaced - right.length) ++ back.placed
  else
    .error HasDisorder.disorder

end Sorting
end TemplatedMarkup
