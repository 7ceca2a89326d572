import TemplatedMarkup.Proofs.Builtin.Range
import TemplatedMarkup.Value.Sequence

/-!
# Slices

A slice moves its bounds into a sequence and goes from the first place on, a step apart, until the
stop.  All this happens in words of 64 bits, with bounds and steps of any size.  A sum that 64 bits
do not hold is behind the stop, so the places are those that unbounded integers give.
-/

namespace TemplatedMarkup
namespace Value

open Builtin (IsBefore rangeCount lt_rangeCount_iff fitsInt64_of_isBefore)

/-! ## The places from one on -/

theorem isShortOf_iff
    {step place stop : Int64} :
    isShortOf step place stop = true ↔ IsBefore step.toInt place.toInt stop.toInt := by
  have upwards : 0 < step ↔ 0 < step.toInt := Int64.lt_iff_toInt_lt
  simp only [isShortOf, IsBefore, upwards]
  split <;> rw [decide_eq_true_iff, Int64.lt_iff_toInt_lt]

theorem not_fitsInt64_of_sumWithin?
    {left right : Int64}
    (noSum : sumWithin? left right = Option.none) :
    ¬fitsInt64 (left.toInt + right.toInt) = true := by
  unfold sumWithin? at noSum
  split at noSum
  · contradiction
  · assumption

/-- Behind a place before the stop, one place less is left. -/
theorem rangeCount_of_isBefore
    {start stop step : Int}
    (nonzero : step ≠ 0)
    (before : IsBefore step start stop) :
    rangeCount start stop step = rangeCount (start + step) stop step + 1 := by
  refine eq_of_forall_lt_iff fun position => ?_
  rw [lt_rangeCount_iff nonzero]
  cases position with
  | zero => simpa using before
  | succ position =>
      rw [Nat.add_lt_add_iff_right, lt_rangeCount_iff nonzero]
      have same : start + (position + 1 : Nat) * step = start + step + position * step := by
        push_cast
        ring
      rw [same]

theorem rangeCount_of_not_isBefore
    {start stop step : Int}
    (nonzero : step ≠ 0)
    (behind : ¬IsBefore step start stop) :
    rangeCount start stop step = 0 := by
  refine Nat.eq_zero_of_not_pos fun positive => behind ?_
  simpa using (lt_rangeCount_iff nonzero 0).mp positive

/-- The place that a number of steps leads to, as an unsigned word. -/
def placeAfter (place step : Int64) (number : Nat) : Nat :=
  (Int64.ofInt (place.toInt + number * step.toInt)).toUInt64.toNat

/-- The places are those of the exact progression; where a sum fails, the progression has ended. -/
theorem placesFrom_eq
    {stop step : Int64}
    (nonzero : step ≠ 0)
    (place : Int64) :
    placesFrom stop step nonzero place =
      (List.range (rangeCount place.toInt stop.toInt step.toInt)).map (placeAfter place step) := by
  have notZero : step.toInt ≠ 0 := toInt_ne_zero_iff.mpr nonzero
  have here (place : Int64) : placeAfter place step 0 = place.toUInt64.toNat := by
    simp [placeAfter]
  fun_induction placesFrom stop step nonzero place with
  | case1 place short next isSum inductionHypothesis =>
      have exact := toInt_of_sumWithin? isSum
      rw [inductionHypothesis, rangeCount_of_isBefore notZero (isShortOf_iff.mp short),
        List.range_succ_eq_map, List.map_cons, List.map_map, here, ← exact]
      congr 2
      funext number
      have same : place.toInt + step.toInt + number * step.toInt =
          place.toInt + (number + 1 : Nat) * step.toInt := by
        push_cast
        ring
      simp only [Function.comp_apply, placeAfter, exact, same, Nat.succ_eq_add_one]
  | case2 place short noSum =>
      have before := isShortOf_iff.mp short
      have behind : ¬IsBefore step.toInt (place.toInt + step.toInt) stop.toInt := fun next => by
        have fits := @fitsInt64_of_isBefore _ _ step.toInt (fitsInt64_toInt place)
          (fitsInt64_toInt stop) 1 (by simpa using next)
        exact not_fitsInt64_of_sumWithin? noSum (by simpa using fits)
      rw [rangeCount_of_isBefore notZero before, rangeCount_of_not_isBefore notZero behind]
      simp [here]
  | case3 place stopped =>
      rw [rangeCount_of_not_isBefore notZero (isShortOf_iff.not.mp stopped)]
      rfl

/-! ## Distinct places -/

theorem toUInt64_toNat_injective : Function.Injective fun word : Int64 => word.toUInt64.toNat := by
  intro left right same
  rw [← Int64.toInt64_toUInt64 left, UInt64.toNat_inj.mp same, Int64.toInt64_toUInt64]

theorem nodup_placesFrom
    {stop step : Int64}
    (nonzero : step ≠ 0)
    (place : Int64) :
    (placesFrom stop step nonzero place).Nodup := by
  have notZero : step.toInt ≠ 0 := toInt_ne_zero_iff.mpr nonzero
  have exact (number : Nat) (inside : number ∈ List.range _) :
      (Int64.ofInt (place.toInt + number * step.toInt)).toInt =
        place.toInt + number * step.toInt :=
    toInt_ofInt_of_fitsInt64 (fitsInt64_of_isBefore (fitsInt64_toInt place) (fitsInt64_toInt stop)
      ((lt_rangeCount_iff notZero number).mp (List.mem_range.mp inside)))
  rw [placesFrom_eq]
  refine List.nodup_range.map_on fun first firstInside second secondInside same => ?_
  have sameWord := congrArg Int64.toInt (toUInt64_toNat_injective same)
  rw [exact first firstInside, exact second secondInside] at sameWord
  exact Int.ofNat.inj (Int.eq_of_mul_eq_mul_right notZero (Int.add_left_cancel sameWord))

/-- At distinct places there are no more items than there are at all. -/
theorem length_itemsAt_le
    {Item : Type}
    {places : List Nat}
    (distinct : places.Nodup)
    (items : List Item) :
    (itemsAt items places).length ≤ items.length := by
  have found : (itemsAt items places).length = (places.filter (· < items.length)).length := by
    rw [itemsAt, List.length_filterMap_eq_countP, ← List.countP_eq_length_filter]
    refine List.countP_congr fun place _ => ?_
    simp
  have inside : (places.filter (· < items.length)).Subperm (List.range items.length) :=
    List.subperm_of_subset (distinct.filter _) fun place among => by
      simpa using (List.mem_filter.mp among).2
  rw [found]
  exact inside.length_le.trans_eq List.length_range

/-- A slice has no more items than the sequence. -/
theorem length_slice_le
    {Item : Type}
    (items : List Item)
    (start stop : Option Int64)
    {step : Int64}
    (nonzero : step ≠ 0) :
    (itemsAt items (slicePlaces items.length start stop step nonzero)).length ≤ items.length :=
  length_itemsAt_le (nodup_placesFrom nonzero _) items

/-! ## Exact ends -/

/-- The unchecked sums of a slice are exact: 64 bits hold them. -/
structure CountsWithoutWrap (length : Nat) : Prop where
  /-- A negative bound is counted from the end. -/
  fromEnd : ∀ bound : Int64, bound < 0 → (bound + .ofNat length).toInt = bound.toInt + length
  /-- The last place of the sequence. -/
  lastPlace : (Int64.ofNat length - 1).toInt = length - 1

theorem countsWithoutWrap
    {length : Nat}
    (addressable : length < 2 ^ 63) :
    CountsWithoutWrap length := by
  have exactLength : (Int64.ofNat length).toInt = length := Int64.toInt_ofNat_of_lt addressable
  constructor
  · intro bound negative
    have low := bound.le_toInt
    rw [Int64.lt_iff_toInt_lt, Int64.toInt_zero] at negative
    rw [Int64.toInt_add, exactLength, bmod_of_fitsInt64]
    rw [fitsInt64_iff]
    omega
  · rw [Int64.toInt_sub, exactLength, show (1 : Int64).toInt = 1 from rfl, bmod_of_fitsInt64]
    rw [fitsInt64_iff]
    omega

/-- Where a bound lies exactly: counted from the end when negative, then moved into a range. -/
def exactBound (length : Nat) (low high : Int) (bound : Int64) : Int :=
  max low (min (if bound.toInt < 0 then bound.toInt + length else bound.toInt) high)

/-- Where a slice starts and stops exactly. -/
def exactEnds (length : Nat) (start stop : Option Int64) (step : Int64) : Int × Int :=
  if 0 < step.toInt then
    ((start.map (exactBound length 0 length)).getD 0,
      (stop.map (exactBound length 0 length)).getD length)
  else
    ((start.map (exactBound length (-1) (length - 1))).getD (length - 1),
      (stop.map (exactBound length (-1) (length - 1))).getD (-1))

theorem toInt_sliceBound
    {length : Nat}
    {low high : Int64}
    (counts : CountsWithoutWrap length)
    (ordered : low.toInt ≤ high.toInt)
    (bound : Int64) :
    (sliceBound (.ofNat length) low high bound).toInt =
      exactBound length low.toInt high.toInt bound := by
  have moved : (if bound < 0 then bound + .ofNat length else bound).toInt =
      if bound.toInt < 0 then bound.toInt + length else bound.toInt := by
    have sign : bound < 0 ↔ bound.toInt < 0 := Int64.lt_iff_toInt_lt
    split
    · rename_i negative
      rw [counts.fromEnd bound negative, if_pos (sign.mp negative)]
    · rename_i nonnegative
      rw [if_neg (sign.not.mp nonnegative)]
  simp only [sliceBound, exactBound, ← moved]
  generalize (if bound < 0 then bound + .ofNat length else bound) = bound
  simp only [Int64.lt_iff_toInt_lt]
  split_ifs <;> omega

/-- A bound that may be absent is exact as its default is. -/
theorem toInt_getD_map
    {move : Int64 → Int64}
    {exact : Int64 → Int}
    {default : Int64}
    {exactDefault : Int}
    (moves : ∀ bound, (move bound).toInt = exact bound)
    (isDefault : default.toInt = exactDefault)
    (bound : Option Int64) :
    ((bound.map move).getD default).toInt = (bound.map exact).getD exactDefault := by
  cases bound with
  | none => exact isDefault
  | some bound => exact moves bound

theorem toInt_sliceEnds
    {length : Nat}
    (addressable : length < 2 ^ 63)
    (start stop : Option Int64)
    (step : Int64) :
    (sliceEnds (.ofNat length) start stop step).map Int64.toInt Int64.toInt =
      exactEnds length start stop step := by
  have counts := countsWithoutWrap addressable
  have exactLength : (Int64.ofNat length).toInt = length := Int64.toInt_ofNat_of_lt addressable
  have upwards : 0 < step ↔ 0 < step.toInt := Int64.lt_iff_toInt_lt
  simp only [sliceEnds, exactEnds, upwards]
  split
  · have moves (bound : Int64) : (sliceBound (.ofNat length) 0 (.ofNat length) bound).toInt =
        exactBound length 0 length bound := by
      rw [toInt_sliceBound counts (by simp [exactLength]), exactLength, Int64.toInt_zero]
    exact Prod.ext (toInt_getD_map moves rfl start) (toInt_getD_map moves exactLength stop)
  · have moves (bound : Int64) :
        (sliceBound (.ofNat length) (-1) (.ofNat length - 1) bound).toInt =
          exactBound length (-1) (length - 1) bound := by
      rw [toInt_sliceBound counts, counts.lastPlace]
      · rfl
      · rw [counts.lastPlace, show (-1 : Int64).toInt = -1 from rfl]
        omega
    exact Prod.ext (toInt_getD_map moves counts.lastPlace start) (toInt_getD_map moves rfl stop)

/-- A place before the stop is one of the sequence. -/
theorem place_mem_range
    {length : Nat}
    {start stop : Option Int64}
    {step : Int64}
    {number : Nat}
    (before : IsBefore step.toInt
      ((exactEnds length start stop step).1 + number * step.toInt)
      (exactEnds length start stop step).2) :
    0 ≤ (exactEnds length start stop step).1 + number * step.toInt ∧
      (exactEnds length start stop step).1 + number * step.toInt < length := by
  have inRange (low high default : Int) (ordered : low ≤ high)
      (isIn : low ≤ default ∧ default ≤ high) (bound : Option Int64) :
      low ≤ (bound.map (exactBound length low high)).getD default ∧
        (bound.map (exactBound length low high)).getD default ≤ high := by
    cases bound with
    | none => exact isIn
    | some bound =>
        simp only [Option.map_some, Option.getD_some, exactBound]
        omega
  unfold IsBefore at before
  unfold exactEnds at before ⊢
  split at before
  · rename_i upwards
    simp only [if_pos upwards] at before ⊢
    have first := inRange 0 length 0 (by omega) (by omega) start
    have last := inRange 0 length length (by omega) (by omega) stop
    have forward : 0 ≤ number * step.toInt := by positivity
    omega
  · rename_i downwards
    simp only [if_neg downwards] at before ⊢
    have first := inRange (-1) (length - 1) (length - 1) (by omega) (by omega) start
    have last := inRange (-1) (length - 1) (-1) (by omega) (by omega) stop
    have backward : number * step.toInt ≤ 0 :=
      Int.mul_nonpos_of_nonneg_of_nonpos (by positivity) (by omega)
    omega

/-! ## Exact slices -/

/-- The items that a slice picks out of a sequence. -/
structure IsSlice
    {Item : Type}
    (start stop : Option Int64)
    (step : Int64)
    (items picked : List Item) : Prop where
  /-- A place before the stop is one of the sequence, and its item is picked in its turn. -/
  picks : ∀ number : Nat,
    IsBefore step.toInt ((exactEnds items.length start stop step).1 + number * step.toInt)
      (exactEnds items.length start stop step).2 →
    ∃ place : Nat, place = (exactEnds items.length start stop step).1 + number * step.toInt ∧
      place < items.length ∧ picked[number]? = items[place]?
  /-- Nothing is picked behind the stop. -/
  ends : ∀ number : Nat,
    ¬IsBefore step.toInt ((exactEnds items.length start stop step).1 + number * step.toInt)
      (exactEnds items.length start stop step).2 →
    picked[number]? = Option.none

/-- The places of a slice are those of the exact progression. -/
theorem slicePlaces_eq
    {length : Nat}
    (addressable : length < 2 ^ 63)
    (start stop : Option Int64)
    {step : Int64}
    (nonzero : step ≠ 0) :
    let ends := exactEnds length start stop step
    slicePlaces length start stop step nonzero =
      (List.range (rangeCount ends.1 ends.2 step.toInt)).map fun (number : Nat) =>
        (ends.1 + number * step.toInt).toNat := by
  intro ends
  have exact := toInt_sliceEnds addressable start stop step
  have first : (sliceEnds (.ofNat length) start stop step).1.toInt = ends.1 :=
    congrArg Prod.fst exact
  have last : (sliceEnds (.ofNat length) start stop step).2.toInt = ends.2 :=
    congrArg Prod.snd exact
  rw [slicePlaces, placesFrom_eq, first, last]
  refine List.map_congr_left fun number inside => ?_
  obtain ⟨low, high⟩ : 0 ≤ ends.1 + number * step.toInt ∧ ends.1 + number * step.toInt < length :=
    place_mem_range
      ((lt_rangeCount_iff (toInt_ne_zero_iff.mpr nonzero) number).mp (List.mem_range.mp inside))
  have same : (Int64.ofInt (ends.1 + number * step.toInt)).toInt = ends.1 + number * step.toInt :=
    toInt_ofInt_of_fitsInt64 (fitsInt64_iff.mpr (by omega))
  have nonnegative : 0 ≤ Int64.ofInt (ends.1 + number * step.toInt) := by
    rwa [Int64.le_iff_toInt_le, Int64.toInt_zero, same]
  rw [placeAfter, first, Int64.toNat_toUInt64_of_le nonnegative, ← Int64.toNat_toInt, same]

theorem lt_of_mem_slicePlaces
    {length place : Nat}
    (addressable : length < 2 ^ 63)
    {start stop : Option Int64}
    {step : Int64}
    (nonzero : step ≠ 0)
    (among : place ∈ slicePlaces length start stop step nonzero) :
    place < length := by
  rw [slicePlaces_eq addressable] at among
  obtain ⟨number, inside, rfl⟩ := List.mem_map.mp among
  have inRange := place_mem_range
    ((lt_rangeCount_iff (toInt_ne_zero_iff.mpr nonzero) number).mp (List.mem_range.mp inside))
  omega

/-- At places of a list, its items are picked in their turn. -/
theorem getElem?_itemsAt
    {Item : Type}
    {items : List Item}
    {places : List Nat}
    (inside : ∀ place ∈ places, place < items.length)
    (number : Nat) :
    (itemsAt items places)[number]? = places[number]?.bind (items[·]?) := by
  induction places generalizing number with
  | nil => simp [itemsAt]
  | cons place places inductionHypothesis =>
      rw [List.forall_mem_cons] at inside
      have first : itemsAt items (place :: places) = items[place] :: itemsAt items places := by
        simp [itemsAt, inside.1]
      rw [first]
      cases number with
      | zero => simp [inside.1]
      | succ number => simpa using inductionHypothesis inside.2 number

theorem isSlice_itemsAt
    {Item : Type}
    {items : List Item}
    (addressable : items.length < 2 ^ 63)
    (start stop : Option Int64)
    {step : Int64}
    (nonzero : step ≠ 0) :
    IsSlice start stop step items
      (itemsAt items (slicePlaces items.length start stop step nonzero)) := by
  have notZero : step.toInt ≠ 0 := toInt_ne_zero_iff.mpr nonzero
  have inside (place : Nat) (among : place ∈ slicePlaces items.length start stop step nonzero) :
      place < items.length :=
    lt_of_mem_slicePlaces addressable nonzero among
  constructor
  · intro number before
    have inRange := place_mem_range before
    refine ⟨_, Int.toNat_of_nonneg inRange.1, by omega, ?_⟩
    rw [getElem?_itemsAt inside, slicePlaces_eq addressable, List.getElem?_map,
      List.getElem?_range ((lt_rangeCount_iff notZero number).mpr before)]
    rfl
  · intro number behind
    have outside := (lt_rangeCount_iff notZero number).not.mpr behind
    rw [getElem?_itemsAt inside, slicePlaces_eq addressable, List.getElem?_map,
      List.getElem?_eq_none (by simpa using outside)]
    rfl

/-- A slice of a text between two places has the characters between them. -/
theorem slice_between
    {text : String}
    {start stop : Nat}
    (textFits : text.length < 2 ^ 63)
    (startFits : start < 2 ^ 63)
    (stopFits : stop < 2 ^ 63) :
    slice (.str text) (some (.ofNat start)) (some (.ofNat stop)) Option.none =
      .ok (.ofText ((text.toList.drop start).take (stop - start))) := by
  have exactStart : (Int64.ofNat start).toInt = start := Int64.toInt_ofNat_of_lt startFits
  have exactStop : (Int64.ofNat stop).toInt = stop := Int64.toInt_ofNat_of_lt stopFits
  have nonzero : (1 : Int64) ≠ 0 := by decide
  have addressable : text.toList.length < 2 ^ 63 := by rwa [String.length_toList]
  have isSlice := isSlice_itemsAt addressable (some (.ofNat start)) (some (.ofNat stop)) nonzero
  simp only [slice, Option.getD_none, dif_neg nonzero]
  congr 2
  apply List.ext_getElem?
  intro number
  have before := isSlice.picks number
  have behind := isSlice.ends number
  simp only [exactEnds, exactBound, IsBefore, exactStart, exactStop, if_pos Int.one_pos,
    show (1 : Int64).toInt = 1 from rfl, Option.map_some, Option.getD_some,
    Int.not_lt.mpr (Int.natCast_nonneg _), if_false] at before behind
  rw [List.getElem?_take, List.getElem?_drop]
  by_cases inside : start + number < min stop text.toList.length
  · obtain ⟨place, isPlace, -, picked⟩ := before (by omega)
    obtain rfl : place = start + number := by omega
    rw [picked, if_pos (by omega)]
  · rw [behind (by omega)]
    split
    · exact (List.getElem?_eq_none (by omega)).symm
    · rfl

/--
A slice of a list or of a string picks exactly the items at the start, a step further, two steps
further and so on, that lie before the stop.  It takes no item from outside the sequence, and none
of its sums wraps around.
-/
theorem slice_picks
    {start stop step : Option Int64}
    (nonzero : step.getD 1 ≠ 0) :
    (∀ items : List Value, items.length < 2 ^ 63 → ∃ picked,
      slice (.list items) start stop step = .ok (.list picked) ∧
        IsSlice start stop (step.getD 1) items picked) ∧
    (∀ text : String, text.length < 2 ^ 63 → ∃ picked,
      slice (.str text) start stop step = .ok (.ofText picked) ∧
        IsSlice start stop (step.getD 1) text.toList picked) ∧
    ∀ length < 2 ^ 63, CountsWithoutWrap length ∧
      ∀ place ∈ slicePlaces length start stop (step.getD 1) nonzero, place < length := by
  refine ⟨fun items addressable => ?_, fun text addressable => ?_, fun length addressable => ?_⟩
  · exact ⟨_, dif_neg nonzero, isSlice_itemsAt addressable start stop nonzero⟩
  · refine ⟨_, dif_neg nonzero, isSlice_itemsAt ?_ start stop nonzero⟩
    rwa [String.length_toList]
  · exact ⟨countsWithoutWrap addressable, fun _ => lt_of_mem_slicePlaces addressable nonzero⟩

/-- The longest step backwards picks the last item, and the sum that it leads to is not taken. -/
theorem slice_picks_longestStep :
    let items : List Value := [.int 1, .int 2, .int 3]
    (some Int64.minValue).getD 1 ≠ 0 ∧ items.length < 2 ^ 63 ∧
      slice (.list items) (some .maxValue) Option.none (some .minValue) = .ok (.list [.int 3]) ∧
      IsSlice (some .maxValue) Option.none .minValue items [.int 3] := by
  intro items
  have nonzero : (some Int64.minValue).getD 1 ≠ 0 := by decide
  have picks : slice (.list items) (some .maxValue) Option.none (some .minValue) =
      .ok (.list [.int 3]) := by
    cbv
  obtain ⟨picked, sliced, isSlice⟩ := (slice_picks nonzero).1 items (by decide)
  obtain rfl := Value.list.inj (Except.ok.inj (picks.symm.trans sliced))
  exact ⟨nonzero, by decide, picks, isSlice⟩

end Value
end TemplatedMarkup
