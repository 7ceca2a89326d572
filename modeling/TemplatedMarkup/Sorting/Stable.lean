import TemplatedMarkup.Sorting.Pivot
import TemplatedMarkup.Sorting.Run

/-!
# The stable sort

Short lists are sorted by insertion, longer ones by joining runs, and stretches without runs by
parting them around pivots.  The sort is stable.  It fails with the first comparison that fails, or
when it finds out that the comparison is no order.
-/

namespace TemplatedMarkup
namespace Sorting

variable {Failure Item : Type}

/--
Sort by parting around pivots.  A pivot that is not greater than the `ancestor`, the pivot to the
left of the list, is the least value: the values equal to it are set aside at once.  A list that has
been parted `limit` times is sorted by joining runs instead.
-/
def sortByPivots
    [HasDisorder Failure]
    (precedes : Comparison Failure Item) :
    Nat → Option Item → List Item → Except Failure (List Item)
  | _, _, [] => .ok []
  | 0, _, first :: others =>
      let values := first :: others
      if values.length ≤ maxShortLength then sortShort precedes values
      else sortByRuns precedes (sortByInsertion precedes) true values
  | limit + 1, ancestor, first :: others => do
      let values := first :: others
      if values.length ≤ maxShortLength then
        sortShort precedes values
      else
        let array := values.toArray
        let position ← pivotPosition precedes (fun index => array.getD index first) values.length
        let list := Pivoted.ofPosition [] position first others
        let isLeast ←
          match ancestor with
          | some ancestor => do pure !(← precedes ancestor list.pivot)
          | none => pure false
        let (lower, upper) ← if isLeast then pure ([], values) else list.partBelow precedes
        if lower.isEmpty then
          let (least, greater) ← list.partUpTo precedes
          return least ++ (← sortByPivots precedes limit none greater)
        else
          let upper ← sortByPivots precedes limit (some list.pivot) upper
          let lower ← sortByPivots precedes limit ancestor lower
          return lower ++ upper

/-- Sort a stretch by pivots, parting it at most twice as often as halving it would take. -/
def sortStretch
    [HasDisorder Failure]
    (precedes : Comparison Failure Item)
    (values : List Item) : Except Failure (List Item) :=
  sortByPivots precedes (2 * values.length.log2) none values

/-- The longest list that is sorted by insertion. -/
def maxInsertionLength : Nat := 20

/-- The longest list whose runs are sorted at once. -/
def maxEagerLength : Nat := 64

/-- Sort values in ascending order; values without a strict order keep the order they had. -/
def sort
    [HasDisorder Failure]
    (precedes : Comparison Failure Item)
    (values : List Item) : Except Failure (List Item) :=
  if values.length ≤ maxInsertionLength then
    sortByInsertion precedes values
  else
    sortByRuns precedes (sortStretch precedes) (values.length ≤ maxEagerLength) values

end Sorting
end TemplatedMarkup
