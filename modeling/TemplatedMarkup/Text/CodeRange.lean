/-!
# Ranges of code points

Character properties are given as ascending lists of code point ranges, and case mappings as
runs of characters moved by one shift.
-/

namespace TemplatedMarkup
namespace Text

/-- The code points from `first` to `last`, both included. -/
structure CodeRange where
  /-- The least code point of the range. -/
  first : Nat
  /-- The greatest code point of the range. -/
  last : Nat
deriving DecidableEq, Repr

/-- A code point lies in a range when it lies between its ends. -/
def CodeRange.contains
    (range : CodeRange)
    (code : Nat) : Bool :=
  range.first ≤ code && code ≤ range.last

/-- Search an ascending list of ranges, giving up at the first range that starts later. -/
def inRanges : List CodeRange → Nat → Bool
  | [], _ => false
  | range :: ranges, code =>
      if code < range.first then false
      else if code ≤ range.last then true
      else inRanges ranges code

/-- The members of `range` at multiples of `step` from its start, each moved by `shift`. -/
structure CaseRun where
  /-- The code points that the run spans. -/
  range : CodeRange
  /-- The distance between two code points that the run maps. -/
  step : Nat
  /-- What is added to a code point that the run maps. -/
  shift : Int
deriving DecidableEq, Repr

/-- The image of a code point under the first run that maps it. -/
def imageInRuns : List CaseRun → Nat → Option Nat
  | [], _ => none
  | run :: runs, code =>
      if code < run.range.first then none
      else if run.range.contains code && (code - run.range.first) % run.step == 0 then
        some (code + run.shift).toNat
      else imageInRuns runs code

/-- A list of ranges that all start at a bound or above has no code point below it. -/
theorem le_of_inRanges
    {ranges : List CodeRange}
    {bound code : Nat}
    (above : ranges.all (fun range => bound ≤ range.first) = true)
    (member : inRanges ranges code = true) :
    bound ≤ code := by
  induction ranges with
  | nil => simp [inRanges] at member
  | cons range ranges inductionHypothesis =>
      simp only [List.all_cons, Bool.and_eq_true, decide_eq_true_eq] at above
      unfold inRanges at member
      split at member
      · contradiction
      · omega

end Text
end TemplatedMarkup
