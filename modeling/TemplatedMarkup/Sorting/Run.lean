import TemplatedMarkup.Sorting.Short

/-!
# Runs

A list is cut into runs: stretches that are found in order, and stretches that are left to be
sorted later.  Neighbouring runs are joined along a balanced tree over the positions of the list;
two unsorted neighbours are joined by leaving both to be sorted as one.
-/

namespace TemplatedMarkup
namespace Sorting

variable {Failure Item : Type}

/-- A stretch of a list that is sorted, or left to be sorted later. -/
structure Run (Item : Type) where
  /-- The values of the stretch. -/
  values : List Item
  /-- Whether the values are in order. -/
  isSorted : Bool

/-- Go on with a run while each value precedes the one before it, or while none does. -/
def extendRun
    (precedes : Comparison Failure Item)
    (descends : Bool)
    (last : Item)
    (taken : List Item) : List Item → Except Failure (List Item)
  | [] => .ok taken
  | next :: others => do
      if (← precedes next last) = descends then
        extendRun precedes descends next (next :: taken) others
      else
        return taken

/-- The longest start of a list that is in order, or that is in strictly descending order. -/
def leadingRun
    (precedes : Comparison Failure Item) : List Item → Except Failure (List Item)
  | first :: second :: others => do
      let descends ← precedes second first
      let taken ← extendRun precedes descends second [second, first] others
      return if descends then taken else taken.reverse
  | values => .ok values

/--
The first run of a list.  A leading run that is long enough is taken as it is.  Otherwise the run
is short and sorted at once if the sort is eager, and left unsorted if not.
-/
def nextRun
    [HasDisorder Failure]
    (precedes : Comparison Failure Item)
    (isEager : Bool)
    (minimum : Nat)
    (values : List Item) : Except Failure (Run Item) := do
  let found ← if minimum ≤ values.length then leadingRun precedes values else pure []
  if minimum ≤ found.length then
    return ⟨found, true⟩
  else if isEager then
    return ⟨← sortShort precedes (values.take maxShortLength), true⟩
  else
    return ⟨values.take minimum, false⟩

/-- The values of a run in order. -/
def Run.sorted
    (sortStretch : List Item → Except Failure (List Item))
    (run : Run Item) : Except Failure (List Item) :=
  if run.isSorted then .ok run.values else sortStretch run.values

/-- Join two neighbouring runs. -/
def Run.join
    (precedes : Comparison Failure Item)
    (sortStretch : List Item → Except Failure (List Item))
    (left right : Run Item) : Except Failure (Run Item) := do
  if left.isSorted || right.isSorted then
    let leftValues ← left.sorted sortStretch
    let rightValues ← right.sorted sortStretch
    return ⟨← merge precedes leftValues rightValues, true⟩
  else
    return ⟨left.values ++ right.values, false⟩

/-- The number of positions that the leaves of the balanced tree stand for. -/
def treeWidth : Nat := 4611686018427387904

/--
The height at which two neighbouring stretches are joined.  The middles of the stretches are scaled
to the width of the tree, and the first binary digit in which they differ gives the height.
-/
def joinHeight
    (length start middle stop : Nat) : Nat :=
  let scale := (treeWidth + length - 1) / length
  Nat.log2 ((scale * (start + middle)) ^^^ (scale * (middle + stop)))

/-- Join a run with the pending runs before it that are joined at or below a height. -/
def collapse
    (precedes : Comparison Failure Item)
    (sortStretch : List Item → Except Failure (List Item))
    (height : Nat) :
    List (Nat × Run Item) → Run Item → Except Failure (List (Nat × Run Item) × Run Item)
  | [], run => .ok ([], run)
  | (pendingHeight, left) :: pending, run => do
      if pendingHeight ≤ height then
        collapse precedes sortStretch height pending (← left.join precedes sortStretch run)
      else
        return ((pendingHeight, left) :: pending, run)

/-- Cut the rest of a list into runs and join them with the last run and those pending before it. -/
def joinRuns
    [HasDisorder Failure]
    (precedes : Comparison Failure Item)
    (sortStretch : List Item → Except Failure (List Item))
    (isEager : Bool)
    (length minimum start : Nat)
    (pending : List (Nat × Run Item))
    (last : Run Item) : List Item → Except Failure (List Item)
  | [] => do
      let whole ← pending.foldlM (fun run entry => entry.2.join precedes sortStretch run) last
      whole.sorted sortStretch
  | first :: others => do
      let next ← nextRun precedes isEager minimum (first :: others)
      let middle := start + last.values.length
      let height := joinHeight length start middle (middle + next.values.length)
      let (pending, joined) ← collapse precedes sortStretch height pending last
      joinRuns precedes sortStretch isEager length minimum middle ((height, joined) :: pending)
        next (others.drop (next.values.length - 1))
termination_by rest => rest.length
decreasing_by
  simp only [List.length_drop, List.length_cons]
  omega

/-- The greatest length of a list whose runs are bounded by a fixed length. -/
def maxFixedRunLength : Nat := 4096

/-- The fixed bound on the length that a leading run must have. -/
def fixedRunLength : Nat := 64

/-- A number near the square root: one step of averaging from a power of two. -/
def approximateRoot (number : Nat) : Nat :=
  let shift := (1 + number.log2) / 2
  ((1 <<< shift) + (number >>> shift)) / 2

/-- The length that a leading run must have, and that an unsorted run is given. -/
def minRunLength (length : Nat) : Nat :=
  if length ≤ maxFixedRunLength then min (length - length / 2) fixedRunLength
  else approximateRoot length

/-- Sort a list by cutting it into runs and joining them. -/
def sortByRuns
    [HasDisorder Failure]
    (precedes : Comparison Failure Item)
    (sortStretch : List Item → Except Failure (List Item))
    (isEager : Bool) : List Item → Except Failure (List Item)
  | [] => .ok []
  | first :: others => do
      let length := others.length + 1
      let minimum := minRunLength length
      let run ← nextRun precedes isEager minimum (first :: others)
      joinRuns precedes sortStretch isEager length minimum 0 [] run
        (others.drop (run.values.length - 1))

end Sorting
end TemplatedMarkup
