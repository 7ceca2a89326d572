import TemplatedMarkup.Builtin.Function
import TemplatedMarkup.Proofs.Value.Integer

/-!
# Ranges

A range counts its numbers by one division before it lists them.  The count is that of the numbers
before the stop, whatever the direction and the length of a step; none of them leaves 64 bits,
because each lies between the ends of the range.
-/

namespace TemplatedMarkup
namespace Builtin

/-- A number is reached on the way from a start to a stop: it lies before the stop. -/
def IsBefore (step number stop : Int) : Prop :=
  if 0 < step then number < stop else stop < number

/-- The steps that a range counts are those that lead to a number before the stop. -/
theorem lt_rangeCount_iff
    {start stop step : Int}
    (nonzero : step ≠ 0)
    (position : Nat) :
    position < rangeCount start stop step ↔ IsBefore step (start + position * step) stop := by
  -- Upwards and downwards, the span is gone through in steps of the same length.
  have counts (span : Int) : position < (if span ≤ 0 then 0
      else ((span - 1) / step.natAbs + 1).toNat) ↔ position * (step.natAbs : Int) < span := by
    have positive : (0 : Int) < step.natAbs := by omega
    split
    · rename_i empty
      have nonneg : 0 ≤ (position : Int) * step.natAbs := by positivity
      omega
    · have quotient := Int.le_ediv_iff_mul_le (a := position) (b := span - 1) positive
      omega
  rw [rangeCount, counts, IsBefore]
  split
  · rename_i upwards
    rw [Int.natAbs_of_nonneg upwards.le]
    omega
  · rename_i downwards
    rw [Int.ofNat_natAbs_of_nonpos (by omega), Int.mul_neg]
    omega

/-- A number before the stop of a range lies between the ends of the range. -/
theorem fitsInt64_of_isBefore
    {start stop step : Int}
    (startFits : fitsInt64 start = true)
    (stopFits : fitsInt64 stop = true)
    {position : Nat}
    (before : IsBefore step (start + position * step) stop) :
    fitsInt64 (start + position * step) = true := by
  rw [fitsInt64_iff] at startFits stopFits ⊢
  unfold IsBefore at before
  split at before
  · rename_i upwards
    have nonneg : 0 ≤ (position : Int) * step := by positivity
    omega
  · rename_i downwards
    have nonpos : (position : Int) * step ≤ 0 :=
      Int.mul_nonpos_of_nonneg_of_nonpos (by positivity) (by omega)
    omega

/-- A range has no more numbers than the distance of its ends, so 64 bits hold their count. -/
theorem saturate_rangeCount
    {start stop : Int}
    (startFits : fitsInt64 start = true)
    (stopFits : fitsInt64 stop = true)
    (step : Int) :
    saturate (rangeCount start stop step) = rangeCount start stop step := by
  have counts (span : Int) (short : span < 2 ^ 64) : (if span ≤ 0 then 0
      else ((span - 1) / step.natAbs + 1).toNat) ≤ maxCount := by
    simp only [maxCount]
    split
    · exact Nat.zero_le _
    · have fewer : (span - 1) / step.natAbs ≤ span - 1 := Int.ediv_le_self _ (by omega)
      omega
  rw [fitsInt64_iff] at startFits stopFits
  refine Nat.min_eq_left (counts _ ?_)
  split <;> omega

/-- What listing the numbers of a range comes to: their list, or its refusal if it is too long. -/
structure ListsNumbers
    (start stop step : Int)
    (count : Nat)
    (outcome : Except EvalError Value) : Prop where
  /-- The numbers up to the count are those before the stop. -/
  counts : ∀ position : Nat, position < count ↔ IsBefore step (start + position * step) stop
  /-- Each of them fits in 64 bits. -/
  fit : ∀ position < count, fitsInt64 (start + position * step) = true
  /-- They are listed in order, if they are not too many. -/
  lists : count ≤ maxSequenceLength → ∃ words : List Int64,
    outcome = .ok (.list (words.map .int)) ∧
      words.map Int64.toInt = (List.range count).map fun (position : Nat) => start + position * step
  /-- Too many are refused, and the refusal says how many they are. -/
  refuses : maxSequenceLength < count →
    outcome = .error (.sequenceTooLong count maxSequenceLength)

theorem listsNumbers_rangeOf
    {start stop step : Int}
    (startFits : fitsInt64 start = true)
    (stopFits : fitsInt64 stop = true)
    (nonzero : step ≠ 0) :
    ListsNumbers start stop step (rangeCount start stop step) (rangeOf start stop step) := by
  have fit (position : Nat) (inside : position < rangeCount start stop step) :
      fitsInt64 (start + position * step) = true :=
    fitsInt64_of_isBefore startFits stopFits ((lt_rangeCount_iff nonzero position).mp inside)
  refine ⟨lt_rangeCount_iff nonzero, fit, fun few => ?_, fun many => ?_⟩
  · refine ⟨(List.range (rangeCount start stop step)).map fun (position : Nat) =>
      .ofInt (start + position * step), ?_, ?_⟩
    · rw [rangeOf, if_neg nonzero, saturate_rangeCount startFits stopFits, checkLength,
        if_neg (Nat.not_lt.mpr few), List.map_map]
      rfl
    · rw [List.map_map]
      refine List.map_congr_left fun position inside => ?_
      exact toInt_ofInt_of_fitsInt64 (fit position (List.mem_range.mp inside))
  · rw [rangeOf, if_neg nonzero, saturate_rangeCount startFits stopFits, checkLength, if_pos many]
    rfl

/--
A range of integers lists all numbers from the start on, a step apart, that lie before the stop, or
is refused as too long.
-/
theorem listsNumbers_call_range
    (start stop : Int64)
    {step : Int64}
    (nonzero : step ≠ 0) :
    ∃ count, ListsNumbers start.toInt stop.toInt step.toInt count
      (Builtin.range.call [.int start, .int stop, .int step]) :=
  ⟨_, listsNumbers_rangeOf (fitsInt64_toInt start) (fitsInt64_toInt stop)
    (toInt_ne_zero_iff.mpr nonzero)⟩

/-- The longest step downwards, across all integers of 64 bits, has two numbers before the stop. -/
theorem listsNumbers_call_range_longestStep :
    Int64.minValue ≠ 0 ∧
      (∃ count, ListsNumbers Int64.maxValue.toInt Int64.minValue.toInt Int64.minValue.toInt count
        (Builtin.range.call [.int .maxValue, .int .minValue, .int .minValue])) ∧
      Builtin.range.call [.int .maxValue, .int .minValue, .int .minValue] =
        .ok (.list [.int .maxValue, .int (-1)]) :=
  have nonzero : Int64.minValue ≠ 0 := by decide
  ⟨nonzero, listsNumbers_call_range _ _ nonzero, rfl⟩

end Builtin
end TemplatedMarkup
