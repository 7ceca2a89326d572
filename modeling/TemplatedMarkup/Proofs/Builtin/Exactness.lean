import TemplatedMarkup.Proofs.Builtin.Crash
import TemplatedMarkup.Proofs.Builtin.Invariant
import TemplatedMarkup.Proofs.Builtin.Range
import TemplatedMarkup.Proofs.Value.ExactInteger

/-!
# Exact results of built-in functions

What a built-in function denotes is said with unbounded integers.  A call gives a result that the
function denotes, or an error: lengths, ranges, sums and magnitudes are exact or refused, and all
other integers are those of the arguments.  Three functions leave this: positions that are counted
beyond 64 bits wrap around, an integer that is rounded to something other than a number of places
passes through a double, and a sort may give up.
-/

namespace TemplatedMarkup

open Value

/-- How many characters, items or entries a value has. -/
def Value.partCount : Value → Nat
  | .str text => text.length
  | .list items => items.length
  | .dict entries => entries.length
  | _ => 0

namespace Builtin

/-! ## Candidates -/

/-- The values that a least or greatest one is chosen from. -/
inductive Candidates : List Value → List Value → Prop
  /-- A single argument is gone through. -/
  | items {sequence : Value} {items : List Value} (gone : sequence.items = .ok items) :
      Candidates [sequence] items
  /-- Several arguments are the candidates themselves. -/
  | arguments {arguments : List Value} (several : ∀ sequence, arguments ≠ [sequence]) :
      Candidates arguments arguments

theorem gives_isChosen_choose
    {wanted : Ordering}
    (differs : wanted ≠ .eq)
    (function : String)
    (values : List Value) :
    Gives (IsChosen wanted values) (choose function wanted values) := by
  unfold choose
  split
  · exact .error _
  · rename_i first others
    have folded : Gives (IsChosen wanted ([first] ++ others)) (others.foldlM (fun best value => do
        return if (← value.compare best) = wanted then value else best) first) :=
      .foldlM_append (fun _ value _ chosen => chosen.gives_better differs value)
        (.single first differs) others
    exact folded

theorem gives_isChosen_chooseFrom
    {wanted : Ordering}
    (differs : wanted ≠ .eq)
    (function : String)
    (arguments : List Value) :
    Gives (fun result => ∃ candidates, Candidates arguments candidates ∧
        IsChosen wanted candidates result)
      (chooseFrom function wanted arguments) := by
  unfold chooseFrom
  split
  · rename_i sequence
    intro result succeeds
    obtain ⟨items, gone, chosen⟩ := exists_of_bind_eq_ok succeeds
    exact ⟨items, .items gone, gives_isChosen_choose differs function items result chosen⟩
  · rename_i several
    refine (gives_isChosen_choose differs function arguments).mono fun result chosen => ?_
    exact ⟨arguments, .arguments several, chosen⟩

/-! ## Ranges -/

/-- The start, the stop and the step that the bounds of a range give. -/
inductive RangeBounds : List Int → Int → Int → Int → Prop
  | stop (stop : Int) : RangeBounds [stop] 0 stop 1
  | startStop (start stop : Int) : RangeBounds [start, stop] start stop 1
  | startStopStep (start stop step : Int) : RangeBounds [start, stop, step] start stop step

/-- A range lists the integers from a start on, a step apart, before a stop. -/
structure IsRange (start stop step : Int) (count : Nat) (items : List Value) : Prop where
  /-- The integers up to the count are those before the stop. -/
  counts : ∀ position : Nat, position < count ↔ IsBefore step (start + position * step) stop
  /-- They are listed in order. -/
  lists : items.map exactInteger? =
    (List.range count).map fun (position : Nat) => some (start + position * step)

theorem gives_isRange_rangeOf
    {start stop : Int}
    (startFits : fitsInt64 start = true)
    (stopFits : fitsInt64 stop = true)
    (step : Int) :
    Gives (fun result => ∃ count items, result = .list items ∧ IsRange start stop step count items)
      (rangeOf start stop step) := by
  unfold rangeOf
  split
  · exact .error _
  · rename_i nonzero
    refine (Gives.any _).bind fun _ _ => .ok ⟨_, _, rfl, lt_rangeCount_iff nonzero, ?_⟩
    rw [List.map_map]
    refine List.map_congr_left fun position inside => ?_
    have before := (lt_rangeCount_iff nonzero position).mp (List.mem_range.mp inside)
    have fits := fitsInt64_of_isBefore startFits stopFits before
    exact congrArg some (toInt_ofInt_of_fitsInt64 fits)

theorem gives_isRange_rangeOfBounds
    {bounds : List Int}
    (fit : ∀ bound ∈ bounds, fitsInt64 bound = true) :
    Gives (fun result => ∃ start stop step count items, RangeBounds bounds start stop step ∧
        result = .list items ∧ IsRange start stop step count items)
      (rangeOfBounds bounds) := by
  unfold rangeOfBounds
  split
  · refine (gives_isRange_rangeOf rfl (fit _ (by simp)) 1).mono fun result isRange => ?_
    exact ⟨_, _, _, isRange.imp fun _ => Exists.imp fun _ => And.intro (.stop _)⟩
  · refine (gives_isRange_rangeOf (fit _ (by simp)) (fit _ (by simp)) 1).mono
      fun result isRange => ?_
    exact ⟨_, _, _, isRange.imp fun _ => Exists.imp fun _ => And.intro (.startStop _ _)⟩
  · refine (gives_isRange_rangeOf (fit _ (by simp)) (fit _ (by simp)) _).mono
      fun result isRange => ?_
    exact ⟨_, _, _, isRange.imp fun _ => Exists.imp fun _ => And.intro (.startStopStep _ _ _)⟩
  · exact .error _

/-- The bounds of a range are the integers that its arguments are. -/
theorem gives_rangeBounds (arguments : List Value) :
    Gives (fun bounds => arguments.map exactInteger? = bounds.map some)
      (arguments.mapM rangeBound) := by
  induction arguments with
  | nil => exact .ok rfl
  | cons argument arguments inductionHypothesis =>
      have first : Gives (fun bound => argument.exactInteger? = some bound)
          (rangeBound argument) := by
        unfold rangeBound
        split
        · rename_i word isWord
          exact .ok (exactInteger?_of_integer? isWord)
        · exact .error _
      rw [List.mapM_cons]
      refine first.bind fun bound isBound => inductionHypothesis.bind fun bounds areBounds => .ok ?_
      rw [List.map_cons, List.map_cons, isBound, areBounds]

/-! ## Positions -/

/-- A position is added exactly as long as the sum fits. -/
theorem toInt_add_ofNat
    {start : Int64}
    {position : Nat}
    (fits : start.toInt + position < 2 ^ 63) :
    (start + .ofNat position).toInt = start.toInt + position := by
  have low := start.le_toInt
  rw [Int64.toInt_add, ← Int64.ofInt_eq_ofNat, Int64.toInt_ofInt, Int.add_bmod_bmod]
  exact bmod_of_fitsInt64 (fitsInt64_iff.mpr ⟨by omega, fits⟩)

/-- Items behind their positions: integers that count from a start on. -/
structure IsNumbered (start : Int) (items pairs : List Value) : Prop where
  /-- Every item has one pair. -/
  asMany : pairs.length = items.length
  /-- The pair has the exact position and the item. -/
  pair : ∀ (position : Nat) (item : Value), items[position]? = some item →
    ∃ number : Int64, pairs[position]? = some (.list [.int number, item]) ∧
      number.toInt = start + position

theorem isNumbered_mapIdx
    {start : Int64}
    {items : List Value}
    (fits : start.toInt + items.length ≤ 2 ^ 63) :
    IsNumbered start.toInt items
      (items.mapIdx fun position item => .list [.int (start + .ofNat position), item]) where
  asMany := List.length_mapIdx
  pair position item found := by
    obtain ⟨inside, -⟩ := List.getElem?_eq_some_iff.mp found
    exact ⟨_, by rw [List.getElem?_mapIdx, found]; rfl, toInt_add_ofNat (by omega)⟩

/-- Positions beyond 64 bits have no pairs. -/
theorem IsNumbered.fits
    {start : Int}
    {items pairs : List Value}
    (numbered : IsNumbered start items pairs)
    (nonempty : items ≠ []) :
    start + items.length ≤ 2 ^ 63 := by
  have positive := List.length_pos_of_ne_nil nonempty
  obtain ⟨number, -, exact⟩ := numbered.pair (items.length - 1) _
    (List.getElem?_eq_getElem (by omega))
  have high := number.toInt_lt
  omega

/-! ## Rows of items -/

/-- Rows that hold, position by position, one item of each sequence. -/
structure IsZipped (sequences rows : List (List Value)) : Prop where
  /-- There are as many rows as the shortest sequence has items. -/
  asMany : rows.length = (sequences.map List.length).min?.getD 0
  /-- A row holds the items of all sequences. -/
  row : ∀ (position : Nat) (row : List Value), rows[position]? = some row →
    row.map some = sequences.map (·[position]?)

/-- Before the end of the shortest sequence, all sequences have an item. -/
theorem map_some_filterMap_getElem?
    {sequences : List (List Value)}
    {position : Nat}
    (inside : ∀ sequence ∈ sequences, position < sequence.length) :
    (sequences.filterMap (·[position]?)).map some = sequences.map (·[position]?) := by
  induction sequences with
  | nil => rfl
  | cons sequence sequences inductionHypothesis =>
      rw [List.forall_mem_cons] at inside
      rw [List.filterMap_cons, List.getElem?_eq_getElem inside.1, List.map_cons, List.map_cons,
        List.getElem?_eq_getElem inside.1, inductionHypothesis inside.2]

theorem exists_isZipped_zipped (sequences : List (List Value)) :
    ∃ rows : List (List Value), zipped sequences = .list (rows.map .list) ∧
      IsZipped sequences rows := by
  refine ⟨(List.range ((sequences.map List.length).min?.getD 0)).map fun position =>
    sequences.filterMap (·[position]?), ?_, by simp, fun position row found => ?_⟩
  · simp only [zipped, List.filterMap_map, Function.comp_def, List.getElem?_toArray, List.map_map]
  · rw [List.getElem?_map, Option.map_eq_some_iff] at found
    obtain ⟨counted, isPosition, rfl⟩ := found
    obtain ⟨inside, isPosition⟩ := List.getElem?_eq_some_iff.mp isPosition
    rw [List.getElem_range] at isPosition
    obtain rfl := isPosition
    rw [List.length_range] at inside
    refine map_some_filterMap_getElem? fun sequence among => ?_
    have length := List.mem_map_of_mem (f := List.length) among
    cases shortest : (sequences.map List.length).min? with
    | none => simp [shortest] at inside
    | some least =>
        rw [shortest, Option.getD_some] at inside
        exact inside.trans_le ((List.min?_eq_some_iff.mp shortest).2 _ length)

/-! ## Entries -/

/-- Every key and every value of the entries comes from one of the pairs. -/
def IsFromPairs (pairs : List Value) (entries : List (Value × Value)) : Prop :=
  ∀ entry ∈ entries, (∃ value, .list [entry.1, value] ∈ pairs) ∧
    ∃ key, .list [key, entry.2] ∈ pairs

theorem isFromPairs_setEntry
    {pairs : List Value}
    {entries : List (Value × Value)}
    (fromPairs : IsFromPairs pairs entries)
    {key value : Value}
    (isPair : .list [key, value] ∈ pairs) :
    IsFromPairs pairs (setEntry key value entries) := by
  unfold IsFromPairs at *
  induction entries with
  | nil =>
      rw [setEntry, List.forall_mem_singleton]
      exact ⟨⟨value, isPair⟩, key, isPair⟩
  | cons entry entries inductionHypothesis =>
      rw [List.forall_mem_cons] at fromPairs
      rw [setEntry]
      split
      · exact List.forall_mem_cons.mpr ⟨⟨fromPairs.1.1, key, isPair⟩, fromPairs.2⟩
      · exact List.forall_mem_cons.mpr ⟨fromPairs.1, inductionHypothesis fromPairs.2⟩

theorem gives_isFromPairs_foldlM (pairs : List Value) :
    Gives (IsFromPairs pairs) (pairs.foldlM insertPair []) := by
  refine .foldlM (fun pair among entries fromPairs => ?_) (fun _ nothing => nomatch nothing)
  unfold insertPair
  split
  · unfold Value.insert
    split
    · exact .ok (isFromPairs_setEntry fromPairs among)
    · exact .error _
  · exact .error _

/-! ## Sorted lists -/

/-- A rearrangement, in ascending order if the values are exact. -/
structure IsAscending (values ascending : List Value) : Prop where
  /-- The values are those of the list. -/
  rearranged : ascending.Perm values
  /-- Every value is less than or equal to those behind it. -/
  ascends : (∀ value ∈ values, value.IsExact) → ascending.Pairwise fun left right =>
    left.compare right = .ok .lt ∨ left.compare right = .ok .eq

theorem gives_isAscending_sort (values : List Value) :
    Gives (IsAscending values) (Value.sort values) := by
  intro sorted succeeds
  refine ⟨gives_perm_sort values sorted succeeds, fun exact => ?_⟩
  obtain ⟨-, -, succeeds⟩ := exists_of_bind_eq_ok succeeds
  have sorts := (ends_sort_precedes exact).gives sorted succeeds
  have sortedExact := sorts.among exact
  refine sorts.ascends.imp_of_mem fun isLeft isRight before => ?_
  obtain ⟨order, compared, notAfter⟩ :=
    ((sortedExact _ isLeft).isNotAfter_iff (sortedExact _ isRight)).mp before
  cases order <;> simp_all

/-! ## Denotations -/

/-- The integer from which a function counts positions: its second argument, if that is one. -/
def startOf (arguments : List Value) : Int :=
  (arguments[1]?.bind exactInteger?).getD 0

/-- What a call of a function denotes. -/
inductive Denotes : Builtin → List Value → Value → Prop
  /-- A text has no integers. -/
  | text {builtin : Builtin} {arguments : List Value} (text : String)
      (isConversion : builtin = .str ∨ builtin = .repr) :
      Denotes builtin arguments (.str text)
  /-- A truth value has no integers. -/
  | truth {builtin : Builtin} {arguments : List Value} (truth : Bool)
      (isTest : builtin = .bool ∨ builtin = .any ∨ builtin = .all) :
      Denotes builtin arguments (.bool truth)
  /-- A double has no integers. -/
  | double {arguments : List Value} (number : Float) :
      Denotes .float arguments (.float number)
  /-- Without an argument, the integer is zero. -/
  | zero : Denotes .int [] (.int 0)
  /-- The integer of a text is the one that the text spells. -/
  | spelled {text : String} {others : List Value} {word : Int64}
      (spells : Decimal.readInteger?
        ((Text.trimWhere Text.isBlank text.toList).filter (· != '_')) = some word.toInt) :
      Denotes .int (.str text :: others) (.int word)
  /-- The integer of an integer is the same. -/
  | integer {value : Value} {others : List Value} {word : Int64}
      (isInteger : value.exactInteger? = some word.toInt) :
      Denotes .int (value :: others) (.int word)
  /-- Without an argument, the list is empty. -/
  | emptyList : Denotes .list [] (.list [])
  /-- The list of what is gone through. -/
  | list {value : Value} {others items : List Value} (gone : value.items = .ok items) :
      Denotes .list (value :: others) (.list items)
  /-- Without an argument, the dict is empty. -/
  | emptyDict : Denotes .dict [] (.dict [])
  /-- The dict of a dict is the same. -/
  | sameDict {entries : List (Value × Value)} {others : List Value} :
      Denotes .dict (.dict entries :: others) (.dict entries)
  /-- The dict of pairs. -/
  | pairs {value : Value} {others pairs : List Value} {entries : List (Value × Value)}
      (gone : value.items = .ok pairs)
      (fromPairs : IsFromPairs pairs entries) :
      Denotes .dict (value :: others) (.dict entries)
  /-- The exact length. -/
  | length {value : Value} {others : List Value} {word : Int64}
      (exact : word.toInt = value.partCount) :
      Denotes .len (value :: others) (.int word)
  /-- The exact integers of a range. -/
  | range {arguments items : List Value} {bounds : List Int} {start stop step : Int} {count : Nat}
      (areIntegers : arguments.map exactInteger? = bounds.map some)
      (areBounds : RangeBounds bounds start stop step)
      (isRange : IsRange start stop step count items) :
      Denotes .range arguments (.list items)
  /-- A list that ascends, or descends if the second argument is true. -/
  | sorted {value : Value} {others items ascending : List Value}
      (gone : value.items = .ok items)
      (isAscending : IsAscending items ascending) :
      Denotes .sorted (value :: others)
        (.list (if others.head?.any truthy then ascending.reverse else ascending))
  /-- The reverse of what is gone through. -/
  | reversed {value : Value} {others items : List Value} (gone : value.items = .ok items) :
      Denotes .reversed (value :: others) (.list items.reverse)
  /-- The items behind their exact positions. -/
  | numbered {value : Value} {others items pairs : List Value}
      (gone : value.items = .ok items)
      (isNumbered : IsNumbered (startOf (value :: others)) items pairs) :
      Denotes .enumerate (value :: others) (.list pairs)
  /-- Rows of the items at equal positions. -/
  | zip {arguments : List Value} {sequences rows : List (List Value)}
      (gone : arguments.mapM items = .ok sequences)
      (isZipped : IsZipped sequences rows) :
      Denotes .zip arguments (.list (rows.map .list))
  /-- The exact magnitude. -/
  | magnitude {value result : Value} {others : List Value} {exact : Int}
      (isInteger : value.exactInteger? = some exact)
      (isMagnitude : result.exactInteger? = some |exact|) :
      Denotes .abs (value :: others) result
  /-- The least candidate. -/
  | least {arguments candidates : List Value} {result : Value}
      (areCandidates : Candidates arguments candidates)
      (isLeast : IsChosen .lt candidates result) :
      Denotes .min arguments result
  /-- The greatest candidate. -/
  | greatest {arguments candidates : List Value} {result : Value}
      (areCandidates : Candidates arguments candidates)
      (isGreatest : IsChosen .gt candidates result) :
      Denotes .max arguments result
  /-- The exact sum. -/
  | sum {value result : Value} {others items : List Value}
      (gone : value.items = .ok items)
      (isSum : IsSum (others.head?.getD (.int 0) :: items) result) :
      Denotes .sum (value :: others) result
  /-- An integer is rounded already. -/
  | rounded {value : Value} {word : Int64} (isInteger : value.exactInteger? = some word.toInt) :
      Denotes .round [value] (.int word)
  /-- A number that is rounded to a number of places is a double. -/
  | places {value places : Value} {others : List Value} (number : Float)
      (isInteger : (places.exactInteger?).isSome) :
      Denotes .round (value :: places :: others) (.float number)

/--
A call keeps to what its function denotes: no position that is counted leaves 64 bits, values that
are sorted do not make the sort give up, and a number of places to round to is an integer.
-/
def StaysExact (builtin : Builtin) (arguments : List Value) : Prop :=
  match builtin with
  | .enumerate => ∀ value ∈ arguments.head?, ∀ items, value.items = .ok items →
      startOf arguments + items.length ≤ 2 ^ 63
  | .sorted => ∀ value ∈ arguments.head?, ∀ items, value.items = .ok items →
      SortsCalmly items
  | .round => ∀ places ∈ arguments[1]?, (places.exactInteger?).isSome
  | _ => True

/-- The start in 64 bits is the exact one. -/
theorem toInt_start (arguments : List Value) :
    ((arguments[1]?.bind integer?).getD 0).toInt = startOf arguments := by
  rw [startOf]
  cases arguments[1]? with
  | none => rfl
  | some value =>
      rw [Option.bind_some, Option.bind_some, exactInteger?]
      cases value.integer? with
      | none => rfl
      | some word => rfl

/-! ## Calls -/

section Calls

variable
  {value : Value}
  {others : List Value}

theorem gives_denotes_textOf
    {builtin : Builtin}
    {arguments : List Value}
    (isConversion : builtin = .str ∨ builtin = .repr)
    (render : Value → String)
    (value : Value) :
    Gives (Denotes builtin arguments) (textOf render value) :=
  (Gives.any _).bind fun _ _ => (Gives.any _).bind fun _ _ => .ok (.text _ isConversion)

theorem gives_denotes_floatOf
    {arguments : List Value}
    (value : Value) :
    Gives (Denotes .float arguments) (floatOf value) := by
  unfold floatOf
  split
  · split
    · exact .ok (.double _)
    · exact .error _
  · exact .ok (.double _)
  · split
    · exact .ok (.double _)
    · exact .error _

theorem gives_denotes_integerOf (noDouble : value.kind ≠ .float) :
    Gives (Denotes .int (value :: others)) (integerOf value) := by
  unfold integerOf
  split
  · unfold integerOfText
    split
    · rename_i text word read
      refine .ok (.spelled ?_)
      unfold Decimal.readInt64? at read
      split at read
      · rename_i exact spells
        split at read
        · rename_i fits
          obtain rfl := Option.some.inj read
          rw [toInt_ofInt_of_fitsInt64 (by simpa [fitsInt64] using fits), spells]
        · contradiction
      · contradiction
    · exact .error _
  · exact absurd rfl noDouble
  · split
    · rename_i word isInteger
      exact .ok (.integer (exactInteger?_of_integer? isInteger))
    · exact .error _

theorem gives_denotes_dictOf : Gives (Denotes .dict (value :: others)) (dictOf value) := by
  unfold dictOf
  split
  · exact .ok .sameDict
  · intro result succeeds
    obtain ⟨pairs, gone, succeeds⟩ := exists_of_bind_eq_ok succeeds
    obtain ⟨entries, inserted, isResult⟩ := exists_of_bind_eq_ok succeeds
    obtain rfl := Except.ok.inj isResult
    exact .pairs gone (gives_isFromPairs_foldlM pairs entries inserted)

theorem gives_denotes_lengthOf (addressable : value.partCount < 2 ^ 63) :
    Gives (Denotes .len (value :: others)) (lengthOf value) := by
  unfold lengthOf
  split
  · exact .ok (.length (Int64.toInt_ofNat_of_lt addressable))
  · exact .ok (.length (Int64.toInt_ofNat_of_lt addressable))
  · exact .ok (.length (Int64.toInt_ofNat_of_lt addressable))
  · exact .error _

theorem gives_denotes_absoluteOf (noDouble : value.kind ≠ .float) :
    Gives (Denotes .abs (value :: others)) (absoluteOf value) := by
  unfold absoluteOf
  split
  · exact absurd rfl noDouble
  · split
    · rename_i word isInteger
      refine (gives_exactInteger?_ofExact _).mono fun result isMagnitude => ?_
      refine .magnitude (exactInteger?_of_integer? isInteger) ?_
      rw [isMagnitude, Int.natCast_natAbs]
    · exact .error _

theorem gives_denotes_roundOf
    (noDouble : value.kind ≠ .float)
    (areInteger : ∀ places ∈ others.head?, (places.exactInteger?).isSome) :
    Gives (Denotes .round (value :: others)) (roundOf value others.head?) := by
  simp only [roundOf]
  split
  · exact absurd rfl noDouble
  · split
    · exact .error _
    · rename_i word isInteger isLast
      rw [List.head?_eq_none_iff] at isLast
      rw [isLast]
      exact .ok (.rounded (exactInteger?_of_integer? isInteger))
    · rename_i word places isInteger isSecond
      obtain ⟨rest, rfl⟩ := List.head?_eq_some_iff.mp isSecond
      have isPlaces := areInteger places rfl
      rw [exactInteger?, Option.isSome_map, Option.isSome_iff_exists] at isPlaces
      obtain ⟨number, isNumber⟩ := isPlaces
      rw [List.head?_cons, Option.bind_some, isNumber]
      exact .ok (.places _ (by rw [exactInteger?_of_integer? isNumber, Option.isSome_some]))

end Calls

/-- A call that stays exact gives what its function denotes. -/
theorem gives_denotes_call
    {builtin : Builtin}
    {arguments : List Value}
    (noDouble : ∀ argument ∈ arguments, argument.kind ≠ .float)
    (addressable : ∀ argument ∈ arguments, argument.partCount < 2 ^ 63)
    (stays : builtin.StaysExact arguments) :
    Gives (builtin.Denotes arguments) (builtin.call arguments) := by
  -- What is left of a function that needs an argument, or goes through it.
  have needed {rest : Value → Except EvalError Value}
      (finishes : ∀ value others, arguments = value :: others →
        Gives (builtin.Denotes arguments) (rest value)) :
      Gives (builtin.Denotes arguments)
        (requiredArgument builtin.name arguments 0 >>= rest) := by
    intro result succeeds
    obtain ⟨value, isGiven, succeeds⟩ := exists_of_bind_eq_ok succeeds
    rw [requiredArgument_eq_ok_iff, ← List.head?_eq_getElem?, List.head?_eq_some_iff] at isGiven
    obtain ⟨others, areArguments⟩ := isGiven
    exact finishes value others areArguments result succeeds
  have overItems {rest : List Value → Except EvalError Value}
      (finishes : ∀ value others items, arguments = value :: others → value.items = .ok items →
        Gives (builtin.Denotes arguments) (rest items)) :
      Gives (builtin.Denotes arguments)
        (requiredArgument builtin.name arguments 0 >>= fun value => value.items >>= rest) :=
    needed fun value others areArguments result succeeds =>
      have ⟨items, gone, succeeds⟩ := exists_of_bind_eq_ok succeeds
      finishes value others items areArguments gone result succeeds
  unfold call
  cases builtin with
  | str => exact gives_denotes_textOf (.inl rfl) _ _
  | repr => exact needed fun _ _ _ => gives_denotes_textOf (.inr rfl) _ _
  | bool => exact .ok (.truth _ (by simp))
  | int =>
      cases arguments with
      | nil => exact .ok .zero
      | cons value others => exact gives_denotes_integerOf (noDouble value (by simp))
  | float =>
      cases arguments with
      | nil => exact .ok (.double _)
      | cons value others => exact gives_denotes_floatOf value
  | list =>
      cases arguments with
      | nil => exact .ok .emptyList
      | cons value others =>
          intro result succeeds
          obtain ⟨items, gone, isResult⟩ := exists_of_bind_eq_ok succeeds
          obtain rfl := Except.ok.inj isResult
          exact .list gone
  | dict =>
      cases arguments with
      | nil => exact .ok .emptyDict
      | cons value others => exact gives_denotes_dictOf
  | len =>
      refine needed fun value others areArguments => ?_
      subst areArguments
      exact gives_denotes_lengthOf (addressable value (by simp))
  | range =>
      intro result succeeds
      obtain ⟨bounds, areBounds, succeeds⟩ := exists_of_bind_eq_ok succeeds
      have areIntegers := gives_rangeBounds arguments bounds areBounds
      have fit : ∀ bound ∈ bounds, fitsInt64 bound = true := fun bound among => by
        have isBound : some bound ∈ arguments.map exactInteger? :=
          areIntegers ▸ List.mem_map_of_mem among
        obtain ⟨argument, -, isInteger⟩ := List.mem_map.mp isBound
        exact fitsInt64_of_exactInteger? isInteger
      obtain ⟨_, _, _, _, _, isBounds, rfl, isRange⟩ :=
        gives_isRange_rangeOfBounds fit result succeeds
      exact .range areIntegers isBounds isRange
  | sorted =>
      refine overItems fun value others items areArguments gone => ?_
      subst areArguments
      refine (gives_isAscending_sort items).bind fun ascending isAscending => .ok ?_
      rw [List.getElem?_cons_succ, ← List.head?_eq_getElem?]
      exact .sorted gone isAscending
  | reversed =>
      refine overItems fun value others items areArguments gone => .ok ?_
      subst areArguments
      exact .reversed gone
  | enumerate =>
      refine overItems fun value others items areArguments gone => .ok ?_
      have fits := stays value (by simp [areArguments]) items gone
      rw [← toInt_start] at fits
      have isNumbered := isNumbered_mapIdx fits
      rw [toInt_start] at isNumbered
      subst areArguments
      exact .numbered gone isNumbered
  | zip =>
      intro result succeeds
      obtain ⟨sequences, gone, isResult⟩ := exists_of_bind_eq_ok succeeds
      obtain ⟨rows, areRows, isZipped⟩ := exists_isZipped_zipped sequences
      obtain rfl := areRows.symm.trans (Except.ok.inj isResult)
      exact .zip gone isZipped
  | any | all => exact overItems fun _ _ _ _ _ => .ok (.truth _ (by simp))
  | abs =>
      refine needed fun value others areArguments => ?_
      subst areArguments
      exact gives_denotes_absoluteOf (noDouble value (by simp))
  | min =>
      refine (gives_isChosen_chooseFrom (by decide) _ arguments).mono fun result chosen => ?_
      obtain ⟨candidates, areCandidates, isLeast⟩ := chosen
      exact .least areCandidates isLeast
  | max =>
      refine (gives_isChosen_chooseFrom (by decide) _ arguments).mono fun result chosen => ?_
      obtain ⟨candidates, areCandidates, isGreatest⟩ := chosen
      exact .greatest areCandidates isGreatest
  | sum =>
      refine overItems fun value others items areArguments gone => ?_
      subst areArguments
      rw [List.getElem?_cons_succ, ← List.head?_eq_getElem?]
      exact (gives_isSum_foldlM _ items).mono fun result isSum => .sum gone isSum
  | round =>
      refine needed fun value others areArguments => ?_
      subst areArguments
      rw [StaysExact, List.getElem?_cons_succ, ← List.head?_eq_getElem?] at stays
      rw [List.getElem?_cons_succ, ← List.head?_eq_getElem?]
      exact gives_denotes_roundOf (noDouble value (by simp)) stays

/--
A call without doubles that stays exact ends with a result that its function denotes, or with an
error for its caller.
-/
theorem ends_call_exact
    {builtin : Builtin}
    {arguments : List Value}
    (noDouble : ∀ argument ∈ arguments, argument.kind ≠ .float)
    (addressable : ∀ argument ∈ arguments, argument.partCount < 2 ^ 63)
    (stays : builtin.StaysExact arguments) :
    Ends (fun cause => cause.isCrash = false) (builtin.Denotes arguments)
      (builtin.call arguments) where
  fails := by
    refine builtin.survives_call fun isSorted => ?_
    subst isSorted
    exact stays
  gives := gives_denotes_call noDouble addressable stays

/-- Two items are counted up to the greatest integer of 64 bits. -/
theorem ends_call_exact_enumerate :
    let arguments : List Value := [.list [.str "a", .str "b"], .int 9223372036854775806]
    let result : Value := .list [.list [.int 9223372036854775806, .str "a"],
      .list [.int 9223372036854775807, .str "b"]]
    (∀ argument ∈ arguments, argument.kind ≠ .float ∧ argument.partCount < 2 ^ 63) ∧
      StaysExact .enumerate arguments ∧ call .enumerate arguments = .ok result ∧
      Denotes .enumerate arguments result := by
  intro arguments result
  have inMemory : ∀ argument ∈ arguments, argument.kind ≠ .float ∧ argument.partCount < 2 ^ 63 := by
    simp [arguments, kind, partCount]
  have stays : StaysExact .enumerate arguments := by
    rintro value ⟨⟩ items gone
    obtain rfl := Except.ok.inj gone
    decide
  have succeeds : call .enumerate arguments = .ok result := rfl
  exact ⟨inMemory, stays, succeeds, (ends_call_exact (fun _ among => (inMemory _ among).1)
    (fun _ among => (inMemory _ among).2) stays).gives result succeeds⟩

/-- Counted from the greatest integer of 64 bits on, the second position wraps around. -/
theorem enumerate_wraps :
    let arguments : List Value := [.list [.str "a", .str "b"], .int 9223372036854775807]
    call .enumerate arguments = .ok (.list [.list [.int 9223372036854775807, .str "a"],
      .list [.int (-9223372036854775808), .str "b"]]) ∧
    ∀ result, ¬Denotes .enumerate arguments result := by
  refine ⟨rfl, fun result denotes => ?_⟩
  cases denotes with
  | text _ isConversion => simp at isConversion
  | truth _ isTest => simp at isTest
  | numbered gone isNumbered =>
      obtain rfl := Except.ok.inj gone
      have fits := isNumbered.fits (by simp)
      contradiction

end Builtin
end TemplatedMarkup
