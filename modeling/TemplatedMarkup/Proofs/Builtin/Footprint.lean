import TemplatedMarkup.Proofs.Builtin.Invariant
import TemplatedMarkup.Proofs.Text.Size
import TemplatedMarkup.Proofs.Value.Footprint

/-!
# Footprints of what built-in functions and methods give

Most functions and methods rearrange what they are given, so the limit on footprints is kept
although they do not check it.  Some add to it: `enumerate` and `items` put every item into a list
of its own, `zip` copies all its arguments, and a string that is split may be of any size.  The
functions that write values check footprints before they write.
-/

namespace TemplatedMarkup

open Value
open String (utf8Len)

/-! ## Functions -/

namespace Builtin

variable {value : Value}

theorem gives_scalar_textOf (render : Value → String) (value : Value) :
    Gives IsScalar (textOf render value) :=
  (Gives.any _).bind fun _ _ => (Gives.any _).bind fun _ _ => .ok (isScalar_str _)

theorem gives_scalar_integerOf (value : Value) : Gives IsScalar (integerOf value) := by
  unfold integerOf
  split
  · unfold integerOfText
    split <;> simp
  · split <;> simp
  · split <;> simp

theorem gives_scalar_floatOf (value : Value) : Gives IsScalar (floatOf value) := by
  unfold floatOf
  split
  · split <;> simp
  · simp
  · split <;> simp

theorem gives_scalar_lengthOf (value : Value) : Gives IsScalar (lengthOf value) := by
  unfold lengthOf
  split <;> simp

theorem gives_scalar_absoluteOf (value : Value) : Gives IsScalar (absoluteOf value) := by
  unfold absoluteOf
  split
  · simp
  · split <;> simp

theorem gives_scalar_roundOf (value : Value) (places : Option Value) :
    Gives IsScalar (roundOf value places) := by
  have whole (number : Float) : Gives IsScalar (roundWhole number) := by
    unfold roundWhole
    split <;> simp
  simp only [roundOf]
  split
  · split
    · exact whole _
    · simp
  · split
    · simp
    · simp
    · split
      · exact whole _
      · simp

/-- A range is small, because its length is checked. -/
theorem gives_room_rangeOf (start stop step : Int) :
    Gives (RoomWithin maxFootprint) (rangeOf start stop step) := by
  unfold rangeOf
  split
  · exact .error _
  · refine (gives_checkLength_saturate _).bind fun _ short => .ok (roomWithin_of_weight_le ?_)
    have small : ∀ item ∈ (List.range (rangeCount start stop step)).map fun (number : Nat) =>
        Value.int (.ofInt (start + number * step)), item.weight ≤ 20 :=
      List.forall_mem_map.mpr fun number _ => by rw [weight]
    refine (weight_list_le_of_forall small).trans ?_
    rw [List.length_map, List.length_range, maxFootprint]
    rw [maxSequenceLength] at short
    omega

theorem gives_room_rangeOfBounds (bounds : List Int) :
    Gives (RoomWithin maxFootprint) (rangeOfBounds bounds) := by
  unfold rangeOfBounds
  split
  · exact gives_room_rangeOf _ _ _
  · exact gives_room_rangeOf _ _ _
  · exact gives_room_rangeOf _ _ _
  · exact .error _

/-- A dict weighs no more than the list of pairs that it is made of. -/
theorem gives_weight_insertPairs (pairs : List Value) (entries : List (Value × Value)) :
    Gives (fun inserted => (Value.dict inserted).weight ≤
        (Value.dict entries).weight + (pairs.map fun pair => pair.weight + 2).sum)
      (pairs.foldlM insertPair entries) := by
  induction pairs generalizing entries with
  | nil => exact .ok (by simp)
  | cons pair pairs inductionHypothesis =>
      have first : Gives (fun inserted => (Value.dict inserted).weight ≤
          (Value.dict entries).weight + (pair.weight + 2)) (insertPair entries pair) := by
        unfold insertPair
        split
        · rename_i key value
          unfold Value.insert
          split
          · refine .ok ?_
            have added := sum_setEntry_le key value entries 4
            rw [weight_dict, weight_dict, weight_list]
            simp only [List.map_cons, List.map_nil, List.sum_cons, List.sum_nil]
            omega
          · exact .error _
        · exact .error _
      rw [List.foldlM_cons, List.map_cons, List.sum_cons]
      refine first.bind fun inserted more => ?_
      refine (inductionHypothesis inserted).mono fun last evenMore => ?_
      omega

theorem gives_room_dictOf
    (within : value.RoomWithin maxFootprint) :
    Gives (RoomWithin maxFootprint) (dictOf value) := by
  unfold dictOf
  split
  · exact .ok within
  · refine (gives_room_items within).bind fun pairs small => ?_
    refine (gives_weight_insertPairs pairs []).bind fun entries fewer => .ok ?_
    refine roomWithin_of_weight_le (fewer.trans ?_)
    rw [weight_list] at small
    rwa [weight_dict, List.map_nil, List.sum_nil]

/-- An item behind its position takes 26 bytes more than the item. -/
theorem weight_numbered (start : Int64) (items : List Value) :
    (numbered start items).weight = (Value.list items).weight + 26 * items.length := by
  have inPairs (number : Nat → Int64) : ((items.mapIdx fun position item =>
      Value.list [.int (number position), item]).map fun item => item.weight + 2).sum =
      (items.map fun item => item.weight + 2).sum + 26 * items.length := by
    induction items generalizing number with
    | nil => rfl
    | cons item items inductionHypothesis =>
        have rest := inductionHypothesis fun position => number (position + 1)
        rw [List.mapIdx_cons, List.map_cons, List.sum_cons, rest, weight_list]
        simp only [List.map_cons, List.map_nil, List.sum_cons, List.sum_nil, List.length_cons,
          weight]
        omega
  rw [numbered, weight_list, weight_list, inPairs]
  omega

/-- What a sequence holds at some first positions is no more than all that it holds. -/
theorem sum_getElem?_le
    (size : Value → Nat)
    (sequence : List Value)
    (count : Nat) :
    ((List.range count).map fun position => sequence[position]?.elim 0 size).sum ≤
      (sequence.map size).sum := by
  induction sequence generalizing count with
  | nil => simp
  | cons item sequence inductionHypothesis =>
      cases count with
      | zero => simp
      | succ count =>
          rw [List.range_succ_eq_map, List.map_cons, List.map_map, List.sum_cons, List.map_cons,
            List.sum_cons]
          exact Nat.add_le_add_left (inductionHypothesis count) _

/-- The items at some first positions, put into lists, weigh no more than the sequences. -/
theorem sum_weight_columns_le (sequences : List (List Value)) (count : Nat) :
    ((List.range count).map fun position =>
        (Value.list (sequences.filterMap (·[position]?))).weight).sum ≤
      2 * count + (sequences.map fun sequence =>
        (sequence.map fun item => item.weight + 2).sum).sum := by
  induction sequences with
  | nil => simp [weight_list, Nat.mul_comm]
  | cons sequence sequences inductionHypothesis =>
      have column (position : Nat) :
          (Value.list ((sequence :: sequences).filterMap (·[position]?))).weight =
            sequence[position]?.elim 0 (fun item => item.weight + 2) +
              (Value.list (sequences.filterMap (·[position]?))).weight := by
        rw [List.filterMap_cons, weight_list, weight_list]
        cases sequence[position]? with
        | none => simp
        | some item =>
            simp only [List.map_cons, List.sum_cons, Option.elim_some]
            omega
      have first := sum_getElem?_le (fun item => item.weight + 2) sequence count
      rw [List.map_congr_left fun position _ => column position, List.sum_map_add, List.map_cons,
        List.sum_cons]
      omega

/-- The lists of items at equal positions hold every sequence once at most. -/
theorem weight_zipped_le
    {sequences : List (List Value)}
    (small : ∀ sequence ∈ sequences, (Value.list sequence).weight ≤ maxFootprint) :
    (zipped sequences).weight ≤
      maxFootprint + (sequences.length - 1) * maxFootprint + 4 * (zipped sequences).entryCount := by
  have each : (sequences.map fun sequence =>
      (sequence.map fun item => item.weight + 2).sum).sum ≤
        sequences.length * (maxFootprint - 2) := by
    refine (List.sum_le_card_nsmul _ (maxFootprint - 2) ?_).trans (by simp)
    refine List.forall_mem_map.mpr fun sequence among => ?_
    have whole := small sequence among
    rw [weight_list] at whole
    omega
  have columns := sum_weight_columns_le sequences ((sequences.map List.length).min?.getD 0)
  simp only [zipped, List.filterMap_map, Function.comp_def, List.getElem?_toArray, entryCount,
    weight_list_eq, List.map_map, List.length_map, List.length_range] at columns ⊢
  rcases sequences with _ | ⟨first, others⟩
  · simp [maxFootprint]
  · rw [List.length_cons, maxFootprint] at each
    rw [List.length_cons, maxFootprint]
    omega

/-- Pairs of equal items. -/
theorem zipped_replicate (count : Nat) (left right : Value) :
    zipped [List.replicate count left, List.replicate count right] =
      .list (List.replicate count (.list [left, right])) := by
  have pair : ∀ position ∈ List.range count,
      Value.list ([List.replicate count left, List.replicate count right].filterMap
        (·[position]?)) = .list [left, right] := fun position inside => by
    simp [List.mem_range.mp inside]
  have shortest : ([List.replicate count left, List.replicate count right].map
      List.length).min?.getD 0 = count := by simp
  simp only [zipped, shortest, List.filterMap_map, Function.comp_def, List.getElem?_toArray]
  rw [List.map_congr_left pair, List.map_const', List.length_range]

/-- The chosen value is one of the values. -/
theorem gives_room_choose
    {values : List Value}
    (within : ∀ value ∈ values, value.RoomWithin maxFootprint)
    (function : String)
    (wanted : Ordering) :
    Gives (RoomWithin maxFootprint) (choose function wanted values) := by
  unfold choose
  split
  · exact .error _
  · rename_i first others
    rw [List.forall_mem_cons] at within
    refine Gives.foldlM (fun value among best bestWithin => ?_) within.1
    refine (Gives.any _).bind fun order _ => .ok ?_
    split
    · exact within.2 value among
    · exact bestWithin

theorem gives_room_chooseFrom
    {arguments : List Value}
    (within : ∀ argument ∈ arguments, argument.RoomWithin maxFootprint)
    (function : String)
    (wanted : Ordering) :
    Gives (RoomWithin maxFootprint) (chooseFrom function wanted arguments) := by
  unfold chooseFrom
  split
  · refine (gives_room_items (within _ (by simp))).bind fun values small => ?_
    refine gives_room_choose (fun value among => ?_) function wanted
    exact roomWithin_of_weight_le ((weight_item_le among).trans small)
  · exact gives_room_choose within function wanted

/-- What a function gives beyond the limit on footprints: what it adds without a check. -/
def uncounted (builtin : Builtin) (arguments : List Value) (result : Value) : Nat :=
  match builtin with
  | .enumerate => 26 * result.entryCount
  | .zip => (arguments.length - 1) * maxFootprint + 4 * result.entryCount
  | _ => 0

/-- A function of arguments within the limit exceeds it by what it does not count at most. -/
theorem gives_room_call
    {arguments : List Value}
    (within : ∀ argument ∈ arguments, argument.RoomWithin maxFootprint)
    (builtin : Builtin) :
    Gives (fun result => result.RoomWithin (maxFootprint + builtin.uncounted arguments result))
      (builtin.call arguments) := by
  have needed : Gives (RoomWithin maxFootprint) (requiredArgument builtin.name arguments 0) := by
    unfold requiredArgument
    split
    · rename_i found
      exact .ok (within _ (List.mem_of_getElem? found))
    · exact .error _
  have first : ∀ value ∈ arguments.head?, value.RoomWithin maxFootprint := fun value isFirst =>
    within value (List.mem_of_head? isFirst)
  -- What is left of a function of one value, or of the items of one.
  have ofScalar {result : Except EvalError Value} {bound : Value → Nat}
      (scalar : Gives IsScalar result) :
      Gives (fun value => value.RoomWithin (bound value)) result :=
    scalar.mono fun _ isScalar => isScalar.roomWithin
  have overItems {rest : List Value → Except EvalError Value} {IsResult : Value → Prop}
      (finishes : ∀ items, (Value.list items).weight ≤ maxFootprint → Gives IsResult (rest items)) :
      Gives IsResult (requiredArgument builtin.name arguments 0 >>= fun value =>
        value.items >>= rest) :=
    needed.bind fun value isWithin => (gives_room_items isWithin).bind finishes
  unfold call
  cases builtin with
  | str => exact ofScalar (gives_scalar_textOf _ _)
  | repr => exact ofScalar ((Gives.any _).bind fun value _ => gives_scalar_textOf _ _)
  | bool => exact .ok (isScalar_bool _).roomWithin
  | int =>
      simp only
      split
      · exact .ok (isScalar_int _).roomWithin
      · exact ofScalar (gives_scalar_integerOf _)
  | float =>
      simp only
      split
      · exact .ok (isScalar_float _).roomWithin
      · exact ofScalar (gives_scalar_floatOf _)
  | list =>
      simp only
      split
      · exact .ok (roomWithin_of_weight_le (weight_list [] ▸ Nat.le_add_right_of_le (by decide)))
      · rename_i value isFirst
        refine (gives_room_items (first value isFirst)).bind fun items small => .ok ?_
        exact roomWithin_of_weight_le small
  | dict =>
      simp only
      split
      · exact .ok (roomWithin_of_weight_le (weight_dict [] ▸ Nat.le_add_right_of_le (by decide)))
      · rename_i value isFirst
        exact gives_room_dictOf (first value isFirst)
  | len => exact ofScalar ((Gives.any _).bind fun value _ => gives_scalar_lengthOf _)
  | range => exact (Gives.any _).bind fun bounds _ => gives_room_rangeOfBounds _
  | sorted =>
      refine overItems fun items small => ?_
      refine (gives_perm_sort items).bind fun sorted rearranged => .ok (roomWithin_of_weight_le ?_)
      rw [← weight_list_of_perm rearranged] at small
      split
      · rwa [weight_list_of_perm (List.reverse_perm sorted)]
      · exact small
  | reversed =>
      refine overItems fun items small => .ok (roomWithin_of_weight_le ?_)
      rwa [weight_list_of_perm (List.reverse_perm items)]
  | enumerate =>
      refine overItems fun items small => .ok (roomWithin_of_weight_le ?_)
      rw [weight_numbered, uncounted, numbered, entryCount, List.length_mapIdx]
      omega
  | zip =>
      have sequences : Gives (fun sequences => sequences.length = arguments.length ∧
          ∀ sequence ∈ sequences, (Value.list sequence).weight ≤ maxFootprint)
          (arguments.mapM Value.items) := fun sequences mapped =>
        ⟨length_of_mapM_eq_ok mapped,
          Gives.mapM (fun value among => gives_room_items (within value among)) sequences mapped⟩
      refine sequences.bind fun sequences sized => .ok (roomWithin_of_weight_le ?_)
      rw [uncounted, ← sized.1, ← Nat.add_assoc]
      exact weight_zipped_le sized.2
  | any | all => exact (Gives.any _).bind fun _ _ => (Gives.any _).bind fun _ _ => .ok trivial
  | abs => exact ofScalar ((Gives.any _).bind fun value _ => gives_scalar_absoluteOf _)
  | min | max => exact gives_room_chooseFrom within _ _
  | sum =>
      refine overItems fun items small => ?_
      have start := roomWithin_getD within (isScalar_int 0) 1
      exact Gives.foldlM (fun item _ total _ => gives_room_add total item) start
  | round => exact ofScalar ((Gives.any _).bind fun value _ => gives_scalar_roundOf _ _)

/-! ## Texts of values -/

/-- How a function gives the text of its first argument: the footprint is checked first, so that
no text beyond the limit on footprints is written to find out how long it is. -/
structure ChecksBeforeWriting
    (builtin : Builtin)
    (render : Value → String)
    (value : Value)
    (others : List Value) : Prop where
  /-- A value beyond the limit on footprints is refused with its footprint. -/
  refused : maxFootprint < value.footprint →
    builtin.call (value :: others) = .error (.valueTooLarge value.footprint maxFootprint)
  /-- The text of any other value takes no more bytes than the footprint that was checked. -/
  fits : value.footprint ≤ maxFootprint → (render value).utf8ByteSize ≤ value.footprint
  /-- That text is given, unless it is too long for a string. -/
  given : value.footprint ≤ maxFootprint →
    builtin.call (value :: others) =
      if maxStringSize < (render value).utf8ByteSize then
        .error (.stringTooLong (render value).utf8ByteSize maxStringSize)
      else .ok (.str (render value))

theorem checksBeforeWriting_of_size_le
    {builtin : Builtin}
    {render : Value → String}
    {others : List Value}
    (calls : builtin.call (value :: others) = textOf render value)
    (fits : (render value).utf8ByteSize ≤ value.weight) :
    builtin.ChecksBeforeWriting render value others where
  refused larger := by
    rw [calls, textOf, checkFootprint, if_pos larger]
    rfl
  fits small := by
    rwa [footprint_of_weight_le (weight_le_of_footprint_le small)]
  given small := by
    rw [calls, textOf, checkFootprint_of_le small, checkStringSize]
    split <;> rfl

/-- The footprint of a value in which every double is written with 24 bytes at most bounds the
literal of the value, so the functions that give texts check enough before they write them. -/
theorem literal_within_footprint (short : value.HasShortFloats 24) :
    (value.weight ≤ maxCount → value.literal.utf8ByteSize ≤ value.footprint) ∧
    ∀ others, str.ChecksBeforeWriting display value others ∧
      repr.ChecksBeforeWriting literal value others := by
  refine ⟨fun counted => ?_, fun others => ⟨?_, ?_⟩⟩
  · rw [footprint, saturate, Nat.min_eq_left counted]
    exact short.size_literal_le
  · exact checksBeforeWriting_of_size_le rfl short.size_display_le
  · exact checksBeforeWriting_of_size_le rfl short.size_literal_le

/-- A list with a double, a string with both quotation marks and a dict. -/
theorem literal_within_footprint_nested :
    (Value.list [.float 0.5, .str "'\"\n", .dict [(.int (-7), .none)]]).HasShortFloats 24 ∧
    (Value.list [.float 0.5, .str "'\"\n", .dict [(.int (-7), .none)]]).weight = 71 ∧
    (Value.list [.float 0.5, .str "'\"\n", .dict [(.int (-7), .none)]]).literal.utf8ByteSize ≤
      (Value.list [.float 0.5, .str "'\"\n", .dict [(.int (-7), .none)]]).footprint := by
  have half : (Value.float 0.5).literal = "0.5" := by
    have written : Decimal.floatLiteral 0.5 = "0.5".toList := by decide +kernel
    rw [literal, literalText, Expression.Literal.text, written, String.ofList_toList]
  have short : (Value.list
      [.float 0.5, .str "'\"\n", .dict [(.int (-7), .none)]]).HasShortFloats 24 := by
    refine .list (List.forall_mem_cons.mpr ⟨.float ?_, ?_⟩)
    · rw [half]
      decide
    · simp [HasShortFloats.str, HasShortFloats.dict, HasShortFloats.int, HasShortFloats.none]
  have weighs : (Value.list
      [.float 0.5, .str "'\"\n", .dict [(.int (-7), .none)]]).weight = 71 := by
    simp only [weight_list, weight_dict, weight, List.map_cons, List.map_nil, List.sum_cons,
      List.sum_nil]
    decide
  exact ⟨short, weighs, (literal_within_footprint short).1 (by rw [weighs]; decide)⟩

end Builtin

/-! ## Methods -/

theorem Value.weight_ofText_replicate (count : Nat) :
    (Value.ofText (List.replicate count 'a')).weight = 2 * count + 2 := by
  rw [ofText, weight, String.utf8ByteSize_ofList, Text.utf8Len_replicate]
  simp [Char.utf8Size]

/-- The weight of a list of texts. -/
theorem Value.weight_texts (parts : List (List Char)) :
    (Value.list (parts.map .ofText)).weight =
      2 + 2 * (parts.map utf8Len).sum + 4 * parts.length := by
  have each : (parts.map fun part => (Value.ofText part).weight).sum =
      2 * (parts.map utf8Len).sum + 2 * parts.length := by
    simp only [ofText, weight, String.utf8ByteSize_ofList, List.sum_map_add, List.map_const',
      List.sum_replicate, smul_eq_mul, List.sum_map_mul_left]
    omega
  rw [weight_list_eq, List.map_map, List.length_map, Function.comp_def, each]
  omega

namespace StringMethod

/-- What a method of a string gives beyond the limit on footprints: parts of a large text. -/
def uncounted (method : StringMethod) (text : String) : Nat :=
  match method with
  | .split | .splitlines => 2 * text.utf8ByteSize + 4 * maxSequenceLength + 2 - maxFootprint
  | _ => 0

/-- The parts of a text take twice its size, and the room of their number. -/
theorem roomWithin_texts
    {text : String}
    {parts : List (List Char)}
    (short : parts.length ≤ maxSequenceLength)
    (inside : (parts.map utf8Len).sum ≤ utf8Len text.toList) :
    (Value.list (parts.map .ofText)).RoomWithin (maxFootprint + split.uncounted text) := by
  refine roomWithin_of_weight_le ?_
  rw [Text.utf8Len_toList] at inside
  rw [weight_texts, uncounted]
  omega

theorem gives_room_splitAt (separator : List Char) (text : String) :
    Gives (RoomWithin (maxFootprint + split.uncounted text)) (splitAt separator text.toList) := by
  unfold splitAt
  split
  · exact .error _
  · rename_i nonempty
    refine (gives_checkLength_saturate _).bind fun _ short => .ok (roomWithin_texts ?_ ?_)
    · rw [Text.occurrences, if_neg nonempty] at short
      omega
    · refine Text.sum_utf8Len_pieces_le (fun isEmpty => nonempty ?_) _
      rw [isEmpty, List.isEmpty_nil]

/-- A method of a string gives no large list, except for parts of a large text. -/
theorem gives_room_call
    (method : StringMethod)
    (text : String)
    (arguments : List Value) :
    Gives (RoomWithin (maxFootprint + method.uncounted text)) (method.call text arguments) := by
  -- What is left of a method that only has to get one more value.
  have onceGiven {Given : Type} {outcome : Except EvalError Given} {result : Given → Value}
      {bound : Nat} (scalar : ∀ given, (result given).IsScalar) :
      Gives (RoomWithin bound) (outcome >>= fun given => pure (result given)) :=
    (Gives.any outcome).bind fun given _ => .ok (scalar given).roomWithin
  unfold call
  cases method with
  | upper | lower | title | capitalize | isdigit | isalpha => exact .ok trivial
  | strip | lstrip | rstrip => exact onceGiven fun _ => isScalar_ofText _
  | replace =>
      refine (Gives.any _).bind fun pattern _ => (Gives.any _).bind fun replacement _ => ?_
      exact (Gives.any _).bind fun _ _ => .ok trivial
  | zfill =>
      refine (Gives.any _).bind fun width _ => (Gives.any _).bind fun _ _ => ?_
      exact .ok trivial
  | join =>
      refine (Gives.any _).bind fun value _ => (Gives.any _).bind fun items _ => ?_
      exact (Gives.any _).bind fun collected _ => .ok trivial
  | format => exact onceGiven fun _ => isScalar_str _
  | split =>
      have words : Gives (RoomWithin (maxFootprint + split.uncounted text))
          (splitAtBlanks text.toList) :=
        (gives_checkLength _).bind fun _ short =>
          .ok (roomWithin_texts short (Text.sum_utf8Len_words_le _))
      simp only
      split
      · exact words
      · exact words
      · exact (Gives.any _).bind fun separator _ => gives_room_splitAt _ _
  | splitlines =>
      exact (gives_checkLength _).bind fun _ short =>
        .ok (roomWithin_texts short (Text.sum_utf8Len_lineLists_le _))
  | startswith | endswith => exact onceGiven fun _ => isScalar_bool _
  | find => exact onceGiven fun _ => isScalar_int _
  | count => exact onceGiven fun _ => isScalar_ofCount _

end StringMethod

theorem gives_scalar_callListMethod
    (items : List Value)
    (name : String)
    (arguments : List Value) :
    Gives IsScalar (callListMethod items name arguments) := by
  simp only [callListMethod]
  split
  · refine (Gives.any _).bind fun needle _ => ?_
    split
    · exact .ok (isScalar_ofCount _)
    · exact .error _
  · exact (Gives.any _).bind fun needle _ => .ok (isScalar_ofCount _)
  · exact .error _

/-- What a method gives beyond the limit on footprints: what it adds without a check. -/
def methodUncounted (receiver : Value) (name : String) (result : Value) : Nat :=
  match receiver with
  | .str text => ((StringMethod.ofName? name).map (·.uncounted text)).getD 0
  | .dict _ => if name = "items" then 4 * result.entryCount else 0
  | _ => 0

/-- A method of a dict gives its keys or values, or its entries each in a list of its own. -/
theorem gives_room_callDictMethod
    {entries : List (Value × Value)}
    {arguments : List Value}
    (within : (Value.dict entries).RoomWithin maxFootprint)
    (each : ∀ argument ∈ arguments, argument.RoomWithin maxFootprint)
    (name : String) :
    Gives (fun result =>
        result.RoomWithin (maxFootprint + methodUncounted (.dict entries) name result))
      (callDictMethod entries name arguments) := by
  have whole := within.weight_dict_le
  unfold callDictMethod
  split
  · refine (Gives.any _).bind fun key _ => .ok ?_
    cases found : lookup? key entries with
    | none => exact (roomWithin_getD each isScalar_none 1).mono (Nat.le_add_right _ _)
    | some value =>
        obtain ⟨entry, among, rfl⟩ := exists_mem_of_lookup? found
        have inside := weight_entry_le among
        exact roomWithin_of_weight_le (by rw [Option.getD_some]; omega)
  · have keys := weight_list_map_le (·.1) 0 entries fun _ _ => by omega
    exact .ok (roomWithin_of_weight_le (by omega))
  · have values := weight_list_map_le (·.2) 0 entries fun _ _ => by omega
    exact .ok (roomWithin_of_weight_le (by omega))
  · have pairs := weight_list_map_le (fun entry => .list [entry.1, entry.2]) 6 entries
      fun entry _ => by
        rw [weight_list]
        simp only [List.map_cons, List.map_nil, List.sum_cons, List.sum_nil]
        omega
    refine .ok (roomWithin_of_weight_le ?_)
    rw [methodUncounted, if_pos rfl, entryCount, List.length_map]
    omega
  · exact .error _

/-- A method of values within the limit exceeds it by what it does not count at most. -/
theorem gives_room_callMethod
    {receiver : Value}
    {arguments : List Value}
    (within : receiver.RoomWithin maxFootprint)
    (each : ∀ argument ∈ arguments, argument.RoomWithin maxFootprint)
    (name : String) :
    Gives (fun result =>
        result.RoomWithin (maxFootprint + methodUncounted receiver name result))
      (callMethod receiver name arguments) := by
  unfold callMethod
  split
  · rename_i text
    split
    · rename_i method isMethod
      simp only [methodUncounted, isMethod, Option.map_some, Option.getD_some]
      exact method.gives_room_call text arguments
    · exact .error _
  · exact (gives_scalar_callListMethod _ _ _).mono fun _ scalar => scalar.roomWithin
  · exact gives_room_callDictMethod within each name
  · exact .error _

end TemplatedMarkup
