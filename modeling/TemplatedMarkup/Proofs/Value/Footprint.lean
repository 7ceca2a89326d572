import Mathlib
import TemplatedMarkup.Proofs.Decimal.Notation
import TemplatedMarkup.Proofs.Text.Size
import TemplatedMarkup.Proofs.Value.Invariant
import TemplatedMarkup.Value.Arithmetic
import TemplatedMarkup.Value.Sequence

/-!
# Footprints

The footprint of a list or dict counts its parts, and for each of them the separator that the
literal has behind it.  Joining lists checks the footprints of both, so the list that they make up
keeps the limit.  Repeating a list checks the footprints of the items only, so the list may exceed
the limit by the room of its brackets and separators.  The footprint bounds the literal, as long as
no double in the value is written with more than the 24 bytes that are counted for it.
-/

namespace TemplatedMarkup

/-! ## Weights -/

/-- A fold that adds the size of every item adds up to the sum of the sizes. -/
theorem foldl_eq_add_sum
    {Item : Type}
    {step : Nat → Item → Nat}
    {size : Item → Nat}
    (adds : ∀ total item, step total item = total + size item)
    (items : List Item)
    (start : Nat) :
    items.foldl step start = start + (items.map size).sum := by
  induction items generalizing start with
  | nil => rfl
  | cons item items inductionHypothesis =>
      rw [List.foldl_cons, inductionHypothesis, adds, List.map_cons, List.sum_cons, Nat.add_assoc]

namespace Value

theorem weight_list (items : List Value) :
    (Value.list items).weight = 2 + (items.map fun item => item.weight + 2).sum := by
  rw [weight]
  exact foldl_eq_add_sum (fun total item => Nat.add_assoc total item.weight 2) items 2

theorem weight_dict (entries : List (Value × Value)) :
    (Value.dict entries).weight =
      2 + (entries.map fun entry => entry.1.weight + entry.2.weight + 4).sum := by
  rw [weight]
  exact foldl_eq_add_sum (fun _ _ => by omega) entries 2

/-- A list weighs what its items weigh, and two more for its brackets and for each item. -/
theorem weight_list_eq (items : List Value) :
    (Value.list items).weight = 2 + (items.map weight).sum + 2 * items.length := by
  rw [weight_list, List.sum_map_add, List.map_const', List.sum_replicate, smul_eq_mul]
  omega

/-- A dict weighs what its keys and values weigh, two more for its brackets and four for each. -/
theorem weight_dict_eq (entries : List (Value × Value)) :
    (Value.dict entries).weight =
      2 + (entries.map fun entry => entry.1.weight + entry.2.weight).sum +
        4 * entries.length := by
  rw [weight_dict, List.sum_map_add, List.map_const', List.sum_replicate, smul_eq_mul]
  omega

/-- An item weighs less than its list. -/
theorem weight_item_le
    {items : List Value}
    {item : Value}
    (among : item ∈ items) :
    item.weight ≤ (Value.list items).weight := by
  have counted : item.weight + 2 ≤ (items.map fun item => item.weight + 2).sum :=
    List.le_sum_of_mem (List.mem_map.mpr ⟨item, among, rfl⟩)
  rw [weight_list]
  omega

/-- The key and the value of an entry together weigh less than the dict. -/
theorem weight_entry_le
    {entries : List (Value × Value)}
    {entry : Value × Value}
    (among : entry ∈ entries) :
    entry.1.weight + entry.2.weight ≤ (Value.dict entries).weight := by
  have counted : entry.1.weight + entry.2.weight + 4 ≤
      (entries.map fun entry => entry.1.weight + entry.2.weight + 4).sum :=
    List.le_sum_of_mem (List.mem_map.mpr ⟨entry, among, rfl⟩)
  rw [weight_dict]
  omega

/-- Rearranging a list does not change its weight. -/
theorem weight_list_of_perm
    {items others : List Value}
    (rearranged : items.Perm others) :
    (Value.list items).weight = (Value.list others).weight := by
  rw [weight_list, weight_list, (rearranged.map _).sum_eq]

theorem weight_append (lefts rights : List Value) :
    (Value.list (lefts ++ rights)).weight + 2 =
      (Value.list lefts).weight + (Value.list rights).weight := by
  rw [weight_list, weight_list, weight_list, List.map_append, List.sum_append]
  omega

theorem weight_replicate (count : Nat) (item : Value) :
    (Value.list (List.replicate count item)).weight = 2 + count * (item.weight + 2) := by
  rw [weight_list, List.map_replicate, List.sum_replicate, smul_eq_mul]

/-- A list that is repeated weighs what its items weigh each time, and what it is longer. -/
theorem weight_copies (items : List Value) (count : Nat) :
    (Value.list (copies items count)).weight =
      2 + (items.map weight).sum * count + 2 * (items.length * count) := by
  rw [weight_list_eq, length_copies]
  have parts : ((copies items count).map weight).sum = (items.map weight).sum * count := by
    unfold copies
    split
    · rename_i empty
      simp [List.isEmpty_iff.mp empty]
    · rw [List.map_flatten, List.sum_flatten, List.map_replicate, List.map_replicate,
        List.sum_replicate, smul_eq_mul, Nat.mul_comm]
  rw [parts]

end Value

/-! ## Literals -/

open String (utf8Len utf8Len_append utf8Len_cons)

/-- An integer of 64 bits is written with 20 bytes at most: 19 digits and a sign. -/
theorem Decimal.utf8Len_integerText_le (value : Int64) :
    utf8Len (integerText value.toInt) ≤ 20 := by
  have digits : utf8Len (Nat.toDigits 10 value.toInt.natAbs) ≤ 19 := by
    have ascii : ∀ character ∈ Nat.toDigits 10 value.toInt.natAbs, character.toNat < 128 := by
      intro character among
      have isDigit := (isDigits_toDigits _).digits character among
      simp only [Char.isDigit, Bool.and_eq_true, decide_eq_true_eq,
        UInt32.le_iff_toNat_le] at isDigit
      exact Nat.lt_of_le_of_lt isDigit.2 (by decide)
    rw [Text.utf8Len_of_ascii ascii, Nat.length_toDigits_le_iff (by decide) (by decide)]
    have low := Int64.le_toInt value
    have high := Int64.toInt_lt value
    omega
  unfold integerText
  split
  · rw [utf8Len_cons, show Char.utf8Size '-' = 1 by decide]
    omega
  · omega

/-- Parts between two brackets, separated by a comma and a space, take two bytes more for the
brackets and for each of the parts at most. -/
theorem Text.utf8Len_bracketed_le
    (opening closing : Char)
    (opens : opening.utf8Size = 1)
    (closes : closing.utf8Size = 1)
    (parts : List (List Char)) :
    utf8Len (opening :: ", ".toList.intercalate parts ++ [closing]) ≤
      2 + (parts.map utf8Len).sum + 2 * parts.length := by
  rw [List.cons_append, utf8Len_cons, utf8Len_append, utf8Len_cons, String.utf8Len_nil, opens,
    closes, Text.utf8Len_intercalate, show utf8Len ", ".toList = 2 by decide]
  omega

namespace Value

/-- Every double in a value is written with some bytes at most. -/
inductive HasShortFloats (bound : Nat) : Value → Prop where
  | none : HasShortFloats bound .none
  | bool (value : Bool) : HasShortFloats bound (.bool value)
  | int (value : Int64) : HasShortFloats bound (.int value)
  | float {value : Float} :
      (Value.float value).literal.utf8ByteSize ≤ bound → HasShortFloats bound (.float value)
  | str (text : String) : HasShortFloats bound (.str text)
  | list {items : List Value} :
      (∀ item ∈ items, HasShortFloats bound item) → HasShortFloats bound (.list items)
  | dict {entries : List (Value × Value)} :
      (∀ entry ∈ entries, HasShortFloats bound entry.1) →
      (∀ entry ∈ entries, HasShortFloats bound entry.2) → HasShortFloats bound (.dict entries)
  | function (closure : Function) : HasShortFloats bound (.function closure)

/-- A literal takes no more bytes than its value weighs. -/
theorem HasShortFloats.utf8Len_literalText_le
    {value : Value}
    (short : value.HasShortFloats 24) :
    utf8Len value.literalText ≤ value.weight := by
  induction short with
  | none =>
      rw [literalText, weight]
      decide
  | bool value =>
      rw [literalText, weight]
      cases value <;> decide
  | int value =>
      rw [literalText, weight]
      exact Decimal.utf8Len_integerText_le value
  | float isShort =>
      rw [literal, String.utf8ByteSize_ofList] at isShort
      rwa [weight]
  | str text =>
      rw [literalText, weight, ← Text.utf8Len_toList]
      exact Text.utf8Len_quoted_le text.toList
  | @list items each inductionHypothesis =>
      have parts : ((items.map literalText).map utf8Len).sum ≤ (items.map weight).sum := by
        rw [List.map_map]
        exact List.sum_le_sum inductionHypothesis
      have whole := Text.utf8Len_bracketed_le '[' ']' (by decide) (by decide)
        (items.map literalText)
      rw [List.length_map] at whole
      rw [literalText, weight_list_eq]
      omega
  | @dict entries keys values keysHypothesis valuesHypothesis =>
      have each : ∀ entry ∈ entries, utf8Len
          (entry.1.literalText ++ ": ".toList ++ entry.2.literalText) ≤
            entry.1.weight + entry.2.weight + 2 := by
        intro entry among
        have key := keysHypothesis entry among
        have value := valuesHypothesis entry among
        rw [utf8Len_append, utf8Len_append, show utf8Len ": ".toList = 2 by decide]
        omega
      have parts := List.sum_le_sum each
      rw [List.sum_map_add, List.map_const', List.sum_replicate, smul_eq_mul] at parts
      have whole := Text.utf8Len_bracketed_le '{' '}' (by decide) (by decide)
        (entries.map fun entry =>
          entry.1.literalText ++ ": ".toList ++ entry.2.literalText)
      rw [List.map_map, List.length_map, Function.comp_def] at whole
      rw [literalText, weight_dict_eq]
      omega
  | function closure =>
      rw [literalText, weight, utf8Len_append, utf8Len_append, Text.utf8Len_toList closure.name]
      have front : utf8Len "<function ".toList = 10 := by decide
      have back : utf8Len ['>'] = 1 := by decide
      omega

theorem HasShortFloats.size_literal_le
    {value : Value}
    (short : value.HasShortFloats 24) :
    value.literal.utf8ByteSize ≤ value.weight := by
  rw [literal, String.utf8ByteSize_ofList]
  exact short.utf8Len_literalText_le

/-- What is shown of a value is no longer than what is written. -/
theorem HasShortFloats.size_display_le
    {value : Value}
    (short : value.HasShortFloats 24) :
    value.display.utf8ByteSize ≤ value.weight := by
  cases value with
  | str text =>
      rw [display, weight]
      omega
  | none | bool | int | float | list | dict | function => exact short.size_literal_le

end Value

/-! ## Checked footprints -/

theorem saturate_of_le
    {count : Nat}
    (small : count ≤ maxFootprint) :
    saturate count = count := by
  have below : maxFootprint ≤ maxCount := by decide
  exact Nat.min_eq_left (Nat.le_trans small below)

theorem le_of_saturate_le
    {count : Nat}
    (small : saturate count ≤ maxFootprint) :
    count ≤ maxFootprint := by
  have below : maxFootprint < maxCount := by decide
  unfold saturate at small
  omega

theorem Value.weight_le_of_footprint_le
    {value : Value}
    (small : value.footprint ≤ maxFootprint) :
    value.weight ≤ maxFootprint :=
  le_of_saturate_le small

theorem Value.footprint_of_weight_le
    {value : Value}
    (small : value.weight ≤ maxFootprint) :
    value.footprint = value.weight :=
  saturate_of_le small

theorem checkFootprint_of_le
    {count : Nat}
    (small : count ≤ maxFootprint) :
    checkFootprint count = .ok () :=
  if_neg (Nat.not_lt.mpr small)

/-- A footprint that passes its check has not been cut off and keeps the limit. -/
theorem gives_checkFootprint (count : Nat) :
    Gives (fun _ => count ≤ maxFootprint) (checkFootprint (saturate count)) := by
  unfold checkFootprint
  split
  · exact .error _
  · rename_i notLarger
    exact .ok (le_of_saturate_le (Nat.le_of_not_lt notLarger))

/-! ## Lists and dicts within a bound -/

namespace Value

/-- A value is no list or dict with a footprint beyond a bound. -/
def RoomWithin (bound : Nat) : Value → Prop
  | .list items => (Value.list items).footprint ≤ bound
  | .dict entries => (Value.dict entries).footprint ≤ bound
  | _ => True

section Room

variable
  {bound larger : Nat}
  {value : Value}

theorem roomWithin_of_weight_le (small : value.weight ≤ bound) : value.RoomWithin bound := by
  have within : value.footprint ≤ bound := (Nat.min_le_left _ _).trans small
  cases value with
  | list | dict => exact within
  | none | bool | int | float | str | function => trivial

theorem RoomWithin.mono
    (within : value.RoomWithin bound)
    (enough : bound ≤ larger) :
    value.RoomWithin larger := by
  cases value with
  | list | dict => exact Nat.le_trans within enough
  | none | bool | int | float | str | function => trivial

/-- A value is neither a list nor a dict. -/
def IsScalar (value : Value) : Prop :=
  value.kind ≠ .list ∧ value.kind ≠ .dict

theorem IsScalar.roomWithin (scalar : value.IsScalar) : value.RoomWithin bound := by
  cases value with
  | list => exact absurd rfl scalar.1
  | dict => exact absurd rfl scalar.2
  | none | bool | int | float | str | function => trivial

@[simp] theorem isScalar_none : IsScalar .none :=
  ⟨nofun, nofun⟩

@[simp] theorem isScalar_bool (value : Bool) : IsScalar (.bool value) :=
  ⟨nofun, nofun⟩

@[simp] theorem isScalar_int (value : Int64) : IsScalar (.int value) :=
  ⟨nofun, nofun⟩

@[simp] theorem isScalar_float (value : Float) : IsScalar (.float value) :=
  ⟨nofun, nofun⟩

@[simp] theorem isScalar_str (text : String) : IsScalar (.str text) :=
  ⟨nofun, nofun⟩

@[simp] theorem isScalar_ofText (text : List Char) : IsScalar (.ofText text) :=
  isScalar_str _

@[simp] theorem isScalar_ofCount (count : Nat) : IsScalar (.ofCount count) :=
  isScalar_int _

/-- What is found in a list at a place, or a value that is no list or dict. -/
theorem roomWithin_getD
    {values : List Value}
    {default : Value}
    (each : ∀ value ∈ values, value.RoomWithin bound)
    (scalar : default.IsScalar)
    (place : Nat) :
    (values[place]?.getD default).RoomWithin bound := by
  cases found : values[place]? with
  | none => exact scalar.roomWithin
  | some value => exact each value (List.mem_of_getElem? found)

end Room

/-- A list within the limit weighs no more than the limit. -/
theorem RoomWithin.weight_list_le
    {items : List Value}
    (within : (Value.list items).RoomWithin maxFootprint) :
    (Value.list items).weight ≤ maxFootprint :=
  weight_le_of_footprint_le within

theorem RoomWithin.weight_dict_le
    {entries : List (Value × Value)}
    (within : (Value.dict entries).RoomWithin maxFootprint) :
    (Value.dict entries).weight ≤ maxFootprint :=
  weight_le_of_footprint_le within

/-! ## Arithmetic -/

section Arithmetic

variable {bound : Nat}

@[simp] theorem gives_scalar_ofExact (value : Int) : Gives IsScalar (ofExact value) := by
  unfold ofExact
  split <;> simp

/-- Joined lists keep the limit. -/
theorem gives_room_concatenate (lefts rights : List Value) :
    Gives (RoomWithin maxFootprint) (concatenate lefts rights) := by
  refine (Gives.any _).bind fun _ _ => (gives_checkFootprint _).bind fun _ small => .ok ?_
  have left : (Value.list lefts).weight ≤ maxFootprint := weight_le_of_footprint_le (by omega)
  have right : (Value.list rights).weight ≤ maxFootprint := weight_le_of_footprint_le (by omega)
  have whole := weight_append lefts rights
  rw [footprint_of_weight_le left, footprint_of_weight_le right] at small
  exact roomWithin_of_weight_le (by omega)

/-- A sum is a list within the limit, or no list. -/
theorem gives_room_add (left right : Value) :
    Gives (RoomWithin maxFootprint) (left.add right) := by
  unfold add
  split
  · exact (gives_scalar_ofExact _).mono fun _ scalar => scalar.roomWithin
  · exact .ok trivial
  · split
    · exact (Gives.any _).bind fun _ _ => .ok trivial
    · exact gives_room_concatenate _ _
    · exact .error _

/-- How long a value is as a list or dict. -/
def entryCount : Value → Nat
  | .list items => items.length
  | .dict entries => entries.length
  | _ => 0

/-- Footprints that stay below the limit together are weights. -/
theorem sum_weight_eq_sum_footprint
    {items : List Value}
    (small : (items.map footprint).sum ≤ maxFootprint) :
    (items.map weight).sum = (items.map footprint).sum := by
  congr 1
  refine List.map_congr_left fun item among => ?_
  have counted : item.footprint ≤ (items.map footprint).sum :=
    List.le_sum_of_mem (List.mem_map.mpr ⟨item, among, rfl⟩)
  exact (footprint_of_weight_le (weight_le_of_footprint_le (counted.trans small))).symm

/-- A repeated list exceeds the limit by no more than its brackets and separators. -/
theorem gives_room_repeatList (items : List Value) (count : Int) :
    Gives (fun result => result.RoomWithin (maxFootprint + 2 + 2 * result.entryCount))
      (repeatList items count) := by
  refine (Gives.any _).bind fun _ _ => (gives_checkFootprint _).bind fun _ small => .ok ?_
  refine roomWithin_of_weight_le ?_
  rw [weight_copies, entryCount, length_copies]
  rw [← List.sum_eq_foldl] at small
  have parts : (items.map weight).sum * count.toNat ≤ maxFootprint := by
    rcases Nat.eq_zero_or_pos count.toNat with zero | positive
    · simp [zero]
    · have each : (items.map footprint).sum ≤ maxFootprint :=
        le_of_saturate_le ((Nat.le_mul_of_pos_right _ positive).trans small)
      rwa [sum_weight_eq_sum_footprint each, ← saturate_of_le each]
  omega

/-- A list that is repeated within the limits. -/
theorem repeatList_eq_ok
    {items : List Value}
    {count : Int}
    (short : items.length * count.toNat ≤ maxSequenceLength)
    (small : (items.map footprint).sum * count.toNat ≤ maxFootprint) :
    repeatList items count = .ok (.list (copies items count.toNat)) := by
  have fewer : saturate (items.length * count.toNat) ≤ maxSequenceLength :=
    (Nat.min_le_left _ _).trans short
  have smaller : saturate (saturate (items.map footprint).sum * count.toNat) ≤ maxFootprint :=
    (Nat.min_le_left _ _).trans ((Nat.mul_le_mul_right _ (Nat.min_le_left _ _)).trans small)
  simp only [repeatList, checkLength, if_neg (Nat.not_lt.mpr fewer), ← List.sum_eq_foldl,
    checkFootprint_of_le smaller]
  rfl

/-- A product is a list that exceeds the limit by its brackets and separators, or no list. -/
theorem gives_room_multiply (left right : Value) :
    Gives (fun result => result.RoomWithin (maxFootprint + 2 + 2 * result.entryCount))
      (left.multiply right) := by
  unfold multiply
  split
  · exact (Gives.any _).bind fun _ _ => .ok trivial
  · exact (Gives.any _).bind fun _ _ => .ok trivial
  · exact gives_room_repeatList _ _
  · exact gives_room_repeatList _ _
  · unfold multiplyNumbers
    split
    · exact (gives_scalar_ofExact _).mono fun _ scalar => scalar.roomWithin
    · exact .ok trivial
    · exact .error _

end Arithmetic

/-! ## Items and entries -/

/-- A list of small items is small. -/
theorem weight_list_le_of_forall
    {items : List Value}
    {each : Nat}
    (small : ∀ item ∈ items, item.weight ≤ each) :
    (Value.list items).weight ≤ 2 + items.length * (each + 2) := by
  rw [weight_list]
  have counted : (items.map fun item => item.weight + 2).sum ≤
      (items.map fun item => item.weight + 2).length • (each + 2) := by
    refine List.sum_le_card_nsmul _ _ (List.forall_mem_map.mpr fun item among => ?_)
    exact Nat.add_le_add_right (small item among) 2
  rw [List.length_map, smul_eq_mul] at counted
  omega

/-- The weight of values that are made of the entries of a dict, some larger than their entry. -/
theorem weight_list_map_le
    (part : Value × Value → Value)
    (extra : Nat)
    (entries : List (Value × Value))
    (small : ∀ entry ∈ entries, (part entry).weight ≤ entry.1.weight + entry.2.weight + extra) :
    (Value.list (entries.map part)).weight + 2 * entries.length ≤
      (Value.dict entries).weight + extra * entries.length := by
  rw [weight_list_eq, weight_dict_eq, List.map_map, List.length_map]
  have counted : (entries.map (weight ∘ part)).sum ≤
      (entries.map fun entry => entry.1.weight + entry.2.weight + extra).sum :=
    List.sum_le_sum small
  rw [List.sum_map_add, List.map_const', List.sum_replicate, smul_eq_mul, Nat.mul_comm] at counted
  omega

/-- An insertion adds the room of one entry at most, whatever is counted for each entry. -/
theorem sum_setEntry_le
    (key value : Value)
    (entries : List (Value × Value))
    (each : Nat) :
    ((setEntry key value entries).map fun entry => entry.1.weight + entry.2.weight + each).sum ≤
      (entries.map fun entry => entry.1.weight + entry.2.weight + each).sum +
        (key.weight + value.weight + each) := by
  induction entries with
  | nil => simp [setEntry]
  | cons entry entries inductionHypothesis =>
      rw [setEntry]
      split
      · simp only [List.map_cons, List.sum_cons]
        omega
      · simp only [List.map_cons, List.sum_cons]
        omega

/-- The items that are gone through make up a list within the limit. -/
theorem gives_room_items
    {value : Value}
    (within : value.RoomWithin maxFootprint) :
    Gives (fun items => (Value.list items).weight ≤ maxFootprint) value.items := by
  cases value with
  | none | bool | int | float | function => exact .error _
  | list items => exact .ok within.weight_list_le
  | str text =>
      refine (gives_checkLength _).bind fun _ short => .ok ?_
      have small : ∀ item ∈ text.toList.map fun character => ofText [character],
          item.weight ≤ 10 := by
        refine List.forall_mem_map.mpr fun character _ => ?_
        have four := character.utf8Size_le_four
        rw [ofText, weight, String.utf8ByteSize_ofList, String.utf8Len_cons, String.utf8Len_nil]
        omega
      have all := weight_list_le_of_forall small
      rw [List.length_map, String.length_toList] at all
      refine all.trans ?_
      rw [maxFootprint]
      rw [maxSequenceLength] at short
      omega
  | dict entries =>
      refine .ok ?_
      have keys := weight_list_map_le (·.1) 0 entries fun _ _ => by omega
      have whole := within.weight_dict_le
      omega

end Value
end TemplatedMarkup
