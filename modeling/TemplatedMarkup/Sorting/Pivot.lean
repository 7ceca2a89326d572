import TemplatedMarkup.Sorting.Insertion

/-!
# Pivots

The value around which a list is parted, chosen as a median of a few values of the list, and the
parting itself.
-/

namespace TemplatedMarkup
namespace Sorting

variable {Failure Item : Type}

/-- The position of the median of the values at three positions. -/
def medianPosition
    (precedes : Comparison Failure Item)
    (valueAt : Nat → Item)
    (first second third : Nat) : Except Failure Nat := do
  let beforeSecond ← precedes (valueAt first) (valueAt second)
  let beforeThird ← precedes (valueAt first) (valueAt third)
  if beforeSecond = beforeThird then
    let inOrder ← precedes (valueAt second) (valueAt third)
    return if inOrder = beforeSecond then second else third
  else
    return first

/-- The narrowest stretch whose value is a median of its own. -/
def minMedianWidth : Nat := 8

/--
The position of the median of three stretches of a width.  A narrow stretch is represented by its
first value, a wide one by the median of its first, fifth and eighth eighths.
-/
def medianOfStretches
    (precedes : Comparison Failure Item)
    (valueAt : Nat → Item)
    (width first second third : Nat) : Except Failure Nat :=
  if wide : minMedianWidth ≤ width then do
    let eighth := width / 8
    let medianFrom (start : Nat) :=
      medianOfStretches precedes valueAt eighth start (start + 4 * eighth) (start + 7 * eighth)
    let first ← medianFrom first
    let second ← medianFrom second
    let third ← medianFrom third
    medianPosition precedes valueAt first second third
  else
    medianPosition precedes valueAt first second third
termination_by width
decreasing_by
  simp only [minMedianWidth] at wide
  omega

/-- The position of the pivot of a list of a length. -/
def pivotPosition
    (precedes : Comparison Failure Item)
    (valueAt : Nat → Item)
    (length : Nat) : Except Failure Nat :=
  let eighth := length / 8
  medianOfStretches precedes valueAt eighth 0 (4 * eighth) (7 * eighth)

/-- A list with one of its values singled out. -/
structure Pivoted (Item : Type) where
  /-- The values before the pivot. -/
  before : List Item
  /-- The pivot. -/
  pivot : Item
  /-- The values after the pivot. -/
  after : List Item

/-- Single out the value at a position, or the last one; `passed` are values before it, last first. -/
def Pivoted.ofPosition (passed : List Item) : Nat → Item → List Item → Pivoted Item
  | position + 1, first, second :: others =>
      ofPosition (first :: passed) position second others
  | _, first, others => ⟨passed.reverse, first, others⟩

/-- Part a list by a test, each part in the order of the list; the parts so far are last first. -/
def partOnto
    (test : Item → Except Failure Bool)
    (passing failing : List Item) : List Item → Except Failure (List Item × List Item)
  | [] => .ok (passing.reverse, failing.reverse)
  | value :: others => do
      if ← test value then partOnto test (value :: passing) failing others
      else partOnto test passing (value :: failing) others

/-- The values that precede the pivot, and the others with the pivot among them. -/
def Pivoted.partBelow
    (precedes : Comparison Failure Item)
    (list : Pivoted Item) : Except Failure (List Item × List Item) := do
  let test (value : Item) := precedes value list.pivot
  let (lowerBefore, upperBefore) ← partOnto test [] [] list.before
  let (lowerAfter, upperAfter) ← partOnto test [] [] list.after
  return (lowerBefore ++ lowerAfter, upperBefore ++ list.pivot :: upperAfter)

/-- The values that the pivot does not precede, the pivot among them, and the others. -/
def Pivoted.partUpTo
    (precedes : Comparison Failure Item)
    (list : Pivoted Item) : Except Failure (List Item × List Item) := do
  let test (value : Item) : Except Failure Bool := do return !(← precedes list.pivot value)
  let (lowerBefore, upperBefore) ← partOnto test [] [] list.before
  let (lowerAfter, upperAfter) ← partOnto test [] [] list.after
  return (lowerBefore ++ list.pivot :: lowerAfter, upperBefore ++ upperAfter)

end Sorting
end TemplatedMarkup
