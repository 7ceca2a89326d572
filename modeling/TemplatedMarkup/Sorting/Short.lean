import TemplatedMarkup.Sorting.Merge

/-!
# Sorting short lists

A short list is cut in halves.  Each half is sorted by insertion, from a start of four values that
are put in order together, and the halves are merged from both ends.
-/

namespace TemplatedMarkup
namespace Sorting

variable {Failure Item : Type}

/-- The longest list that counts as short. -/
def maxShortLength : Nat := 32

/-- The shortest list whose halves start with four values in order. -/
def minStartedLength : Nat := 8

/-- Four values in ascending order, by five comparisons. -/
def sortFour
    (precedes : Comparison Failure Item)
    (first second third fourth : Item) : Except Failure (List Item) := do
  let (low, high) := if ← precedes second first then (second, first) else (first, second)
  let (otherLow, otherHigh) := if ← precedes fourth third then (fourth, third) else (third, fourth)
  let lowsAreSwapped ← precedes otherLow low
  let highsAreSwapped ← precedes otherHigh high
  let (least, left, right, greatest) :=
    match lowsAreSwapped, highsAreSwapped with
    | false, false => (low, high, otherLow, otherHigh)
    | false, true => (low, otherLow, otherHigh, high)
    | true, false => (otherLow, low, high, otherHigh)
    | true, true => (otherLow, low, otherHigh, high)
  if ← precedes right left then return [least, right, left, greatest]
  else return [least, left, right, greatest]

/-- The start of a half, put in descending order, and the values that follow it. -/
def startOfHalf
    (precedes : Comparison Failure Item)
    (withFour : Bool) : List Item → Except Failure (List Item × List Item)
  | first :: second :: third :: fourth :: others => do
      if withFour then
        return ((← sortFour precedes first second third fourth).reverse, others)
      else
        return ([], first :: second :: third :: fourth :: others)
  | values => .ok ([], values)

/-- Sort a short list. -/
def sortShort
    [HasDisorder Failure]
    (precedes : Comparison Failure Item)
    (values : List Item) : Except Failure (List Item) := do
  let withFour := minStartedLength ≤ values.length
  let half := values.length / 2
  let (leftStart, leftOthers) ← startOfHalf precedes withFour (values.take half)
  let (rightStart, rightOthers) ← startOfHalf precedes withFour (values.drop half)
  let left ← insertAll precedes leftStart leftOthers
  let right ← insertAll precedes rightStart rightOthers
  mergeFromEnds precedes left.reverse right.reverse

end Sorting
end TemplatedMarkup
