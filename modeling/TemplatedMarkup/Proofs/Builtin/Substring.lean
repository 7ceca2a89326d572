import TemplatedMarkup.Expression.Eval
import TemplatedMarkup.Proofs.Builtin.StringSize
import TemplatedMarkup.Proofs.Value.Slice

/-!
# Splitting and searching strings

The pieces that a string is split into give the string back when they are joined by the separator.
Joined by any other string they give the string with the separator replaced, and replacing and
joining keep the limit on strings in the same cases.  Membership, the methods that find, count and
split, and slices agree on where a string occurs in another one.
-/

namespace TemplatedMarkup

open String (utf8Len)

/-! ## Splitting, joining and replacing -/

namespace StringMethod

/-- Strings are joined exactly if they keep the limit when they are joined. -/
theorem joined_texts_eq_ok_iff
    {separator : String}
    {texts : List (List Char)}
    {value : Value} :
    joined separator (texts.map .ofText) = .ok value ↔
      utf8Len (separator.toList.intercalate texts) ≤ maxStringSize ∧
        value = .ofText (separator.toList.intercalate texts) := by
  have whole : Text.join separator (texts.map .ofList) =
      .ofList (separator.toList.intercalate texts) := by
    simp [Text.join, Function.comp_def]
  have areStrings : texts.map Value.ofText = (texts.map String.ofList).map .str := by
    rw [List.map_map]
    rfl
  rw [areStrings, joined_eq_ok_iff]
  constructor
  · rintro ⟨others, same, fits, rfl⟩
    obtain rfl := List.map_injective_iff.mpr (fun _ _ => Value.str.inj) same
    rw [whole, String.utf8ByteSize_ofList] at fits
    exact ⟨fits, by rw [whole]; rfl⟩
  · rintro ⟨fits, rfl⟩
    refine ⟨_, rfl, ?_, by rw [whole]; rfl⟩
    rwa [whole, String.utf8ByteSize_ofList]

/-- A text is split exactly if it has no more pieces than a list may have items. -/
theorem splitAt_eq_ok_iff
    {separator text : List Char}
    (nonempty : separator ≠ [])
    {value : Value} :
    splitAt separator text = .ok value ↔
      (Text.pieces separator text).length ≤ maxSequenceLength ∧
        value = .list ((Text.pieces separator text).map .ofText) := by
  have notEmpty : ¬separator.isEmpty = true := by simpa using nonempty
  have positive := List.length_pos_iff.mpr (Text.pieces_ne_nil nonempty text)
  rw [splitAt, if_neg notEmpty]
  refine bind_check_eq_ok_iff.trans (and_congr_left fun _ => ?_)
  rw [checkLength_saturate_eq_ok_iff, Text.occurrences, if_neg notEmpty]
  omega

end StringMethod

/--
What a string within the limit is split into gives the string when it is joined by the separator.
Joined by another string it gives the string with the separator replaced by that one, and it is
joined exactly if the separator can be replaced.
-/
theorem joins_of_split
    {text separator : String}
    (fits : text.utf8ByteSize ≤ maxStringSize)
    (nonempty : separator ≠ "")
    {pieces : Value}
    (splits : callMethod (.str text) "split" [.str separator] = .ok pieces) :
    callMethod (.str separator) "join" [pieces] = .ok (.str text) ∧
      ∀ (replacement : String) (result : Value),
        callMethod (.str text) "replace" [.str separator, .str replacement] = .ok result ↔
          callMethod (.str replacement) "join" [pieces] = .ok result := by
  have notNil : separator.toList ≠ [] := by simpa using nonempty
  obtain ⟨-, rfl⟩ := (StringMethod.splitAt_eq_ok_iff notNil).mp splits
  constructor
  · change StringMethod.joined separator _ = _
    rw [StringMethod.joined_texts_eq_ok_iff, Text.intercalate_pieces notNil, Text.utf8Len_toList]
    exact ⟨fits, by rw [Value.ofText, String.ofList_toList]⟩
  · intro replacement result
    change StringMethod.replaced _ _ _ = _ ↔ StringMethod.joined _ _ = _
    rw [StringMethod.replaced_eq_ok_iff, StringMethod.joined_texts_eq_ok_iff,
      Text.replace_eq_intercalate notNil]

/-- A separator that overlaps itself in the text. -/
theorem joins_of_split_overlapping :
    let text := "aaaéaa"
    let pieces := Value.list [.str "", .str "aé", .str ""]
    text.utf8ByteSize ≤ maxStringSize ∧ "aa" ≠ "" ∧
      callMethod (.str text) "split" [.str "aa"] = .ok pieces ∧
      callMethod (.str "aa") "join" [pieces] = .ok (.str text) ∧
      callMethod (.str text) "replace" [.str "aa", .str "-"] = .ok (.str "-aé-") := by
  intro text pieces
  have splits : callMethod (.str text) "split" [.str "aa"] = .ok pieces := by cbv
  obtain ⟨joined, replaced⟩ := joins_of_split (by decide) (by decide) splits
  exact ⟨by decide, by decide, splits, joined, (replaced _ _).mpr (by cbv)⟩

/-! ## Words for places -/

/-- A word that is not negative is a place. -/
theorem exists_eq_ofNat
    {word : Int64}
    (nonnegative : 0 ≤ word) :
    ∃ place : Nat, place < 2 ^ 63 ∧ word = .ofNat place := by
  rw [Int64.le_iff_toInt_le, Int64.toInt_zero] at nonnegative
  have bounded := word.toInt_lt
  refine ⟨word.toInt.toNat, by omega, ?_⟩
  rw [← Int64.toInt_inj, Int64.toInt_ofNat_of_lt (by omega), Int.toNat_of_nonneg nonnegative]

/-- Places are ordered as their words are. -/
theorem ofNat_lt_ofNat_iff
    {left right : Nat}
    (leftFits : left < 2 ^ 63)
    (rightFits : right < 2 ^ 63) :
    Int64.ofNat left < Int64.ofNat right ↔ left < right := by
  rw [Int64.lt_iff_toInt_lt, Int64.toInt_ofNat_of_lt leftFits, Int64.toInt_ofNat_of_lt rightFits,
    Int.ofNat_lt]

/-- The word of a place is not negative. -/
theorem ofNat_nonneg
    {place : Nat}
    (fits : place < 2 ^ 63) :
    0 ≤ Int64.ofNat place := by
  rw [Int64.le_iff_toInt_le, Int64.toInt_ofNat_of_lt fits, Int64.toInt_zero]
  exact Int.natCast_nonneg place

/-- The word for a missing place is not the word of a place. -/
theorem ofNat_ne_neg_one
    {place : Nat}
    (fits : place < 2 ^ 63) :
    Int64.ofNat place ≠ -1 := by
  intro isMissing
  have nonnegative := ofNat_nonneg fits
  rw [isMissing] at nonnegative
  exact absurd nonnegative (by decide)

/-! ## Parts of a string -/

/--
The part of a string that starts at a place and is as long as another string:
`text[place : place + len(part)]`.
-/
def partFrom (text part : String) (place : Int64) : Except EvalError Value := do
  let length ← Builtin.len.call [.str part]
  let stop ← (Value.int place).add length
  (Value.str text).slice (some place) (← stop.sliceBound?) none

variable {text part : String}

theorem partFrom_ofNat
    (textFits : text.length < 2 ^ 63)
    {place : Nat}
    (stopFits : place + part.length < 2 ^ 63) :
    partFrom text part (.ofNat place) =
      .ok (.ofText ((text.toList.drop place).take part.length)) := by
  have exact : (Int64.ofNat place).toInt + (Int64.ofNat part.length).toInt =
      (Int64.ofNat (place + part.length)).toInt := by
    rw [Int64.toInt_ofNat_of_lt (by omega), Int64.toInt_ofNat_of_lt (by omega),
      Int64.toInt_ofNat_of_lt stopFits, Int.natCast_add]
  have stop : (Value.int (.ofNat place)).add (.ofCount part.length) =
      .ok (.int (.ofNat (place + part.length))) := by
    rw [← Value.ofExact_toInt, ← exact]
    rfl
  have placeFits : place < 2 ^ 63 := by omega
  have sliced := Value.slice_between textFits placeFits stopFits
  rw [Nat.add_sub_cancel_left] at sliced
  change (Value.int (.ofNat place)).add (.ofCount part.length) >>= _ = _
  rw [stop]
  exact sliced

/-- A string is its own part from a place on if the text goes on with it there. -/
theorem partFrom_eq_self_iff
    (textFits : text.length < 2 ^ 63)
    {place : Nat}
    (stopFits : place + part.length < 2 ^ 63) :
    partFrom text part (.ofNat place) = .ok (.str part) ↔
      part.toList <+: text.toList.drop place := by
  rw [partFrom_ofNat textFits stopFits, List.prefix_iff_eq_take, String.length_toList]
  constructor
  · intro same
    have sameText := congrArg String.toList (Value.str.inj (Except.ok.inj same))
    rwa [String.toList_ofList, eq_comm] at sameText
  · intro same
    rw [← same, Value.ofText, String.ofList_toList]

/-! ## Answers -/

/-- What the operations that look for a string in another one answer. -/
structure SearchAnswers (text part : String) where
  /-- Whether the string is a part of the text. -/
  isPart : Bool
  /-- Whether the text starts with the string. -/
  starts : Bool
  /-- The place at which the string is found, or minus one. -/
  place : Int64
  /-- How often the string is counted. -/
  count : Int64
  contains_eq : (Value.str text).contains (.str part) = .ok isPart
  startswith_eq : callMethod (.str text) "startswith" [.str part] = .ok (.bool starts)
  find_eq : callMethod (.str text) "find" [.str part] = .ok (.int place)
  count_eq : callMethod (.str text) "count" [.str part] = .ok (.int count)

/-- Answers that agree with each other, with slices and with splitting. -/
structure SearchAnswers.Agree (answers : SearchAnswers text part) : Prop where
  /-- What is a part is found. -/
  isPart_iff : answers.isPart = true ↔ answers.place ≠ -1
  /-- What is found is counted. -/
  count_pos_iff : answers.place ≠ -1 ↔ 0 < answers.count
  /-- It is found at a place that the slice from there on confirms. -/
  partFrom_place : answers.place ≠ -1 →
    0 ≤ answers.place ∧ partFrom text part answers.place = .ok (.str part)
  /-- No slice from an earlier place on is the string. -/
  partFrom_ne : answers.place ≠ -1 →
    ∀ earlier, 0 ≤ earlier → earlier < answers.place →
      partFrom text part earlier ≠ .ok (.str part)
  /-- The text starts with what is found at its first place. -/
  starts_iff : answers.starts = true ↔ answers.place = 0
  /-- A split has one piece more than there are occurrences. -/
  count_of_split : part ≠ "" →
    ∀ pieces, callMethod (.str text) "split" [.str part] = .ok pieces →
      ∃ number, Builtin.len.call [pieces] = .ok (.int number) ∧ answers.count = number - 1

/-- The answers to a search. -/
def searchAnswers (text part : String) : SearchAnswers text part where
  isPart := Text.occursIn part.toList text.toList
  starts := part.toList.isPrefixOf text.toList
  place := (Text.find? part.toList text.toList).elim (-1) .ofNat
  count := .ofNat (Text.occurrences part.toList text.toList)
  contains_eq := rfl
  startswith_eq := rfl
  find_eq := rfl
  count_eq := rfl

/-! ## Agreement -/

/-- A string within the limit has no more characters than it may have bytes. -/
theorem length_le_maxStringSize
    (fits : text.utf8ByteSize ≤ maxStringSize) :
    text.length ≤ maxStringSize := by
  have short := Text.length_le_utf8Len text.toList
  rw [Text.utf8Len_toList, String.length_toList] at short
  exact short.trans fits

/-- A string is found at its first place in a text, or it is no part of the text. -/
theorem place_cases (text part : String) :
    ((searchAnswers text part).place = -1 ∧ ¬part.toList <:+: text.toList) ∨
      ∃ place : Nat, (searchAnswers text part).place = .ofNat place ∧
        Text.OccursFirstAt part.toList text.toList place := by
  have isPlace : (searchAnswers text part).place =
      (Text.find? part.toList text.toList).elim (-1) .ofNat := rfl
  rw [isPlace, ← Text.occursIn_iff, Text.occursIn]
  cases found : Text.find? part.toList text.toList with
  | none => exact .inl ⟨rfl, Bool.false_ne_true⟩
  | some place => exact .inr ⟨place, rfl, Text.find?_eq_some_iff.mp found⟩

/-- Where a string occurs first, it is within a text that keeps the limit. -/
theorem add_length_le_maxStringSize
    (fits : text.utf8ByteSize ≤ maxStringSize)
    {place : Nat}
    (first : Text.OccursFirstAt part.toList text.toList place) :
    place + part.length ≤ maxStringSize := by
  have inside := first.add_length_le
  rw [String.length_toList, String.length_toList] at inside
  exact inside.trans (length_le_maxStringSize fits)

/-- A string is found exactly if it is a part of the text. -/
theorem place_ne_iff
    (fits : text.utf8ByteSize ≤ maxStringSize) :
    (searchAnswers text part).place ≠ -1 ↔ part.toList <:+: text.toList := by
  rcases place_cases text part with ⟨isMissing, noPart⟩ | ⟨place, isPlace, first⟩
  · exact iff_of_false (fun found => found isMissing) noPart
  · have inside := add_length_le_maxStringSize fits first
    rw [maxStringSize] at inside
    rw [isPlace]
    refine iff_of_true (ofNat_ne_neg_one (by omega)) ?_
    exact first.here.isInfix.trans (List.drop_suffix place _).isInfix

/-- A string is found at the start exactly if the text starts with it. -/
theorem place_eq_zero_iff
    (fits : text.utf8ByteSize ≤ maxStringSize) :
    (searchAnswers text part).place = 0 ↔ part.toList <+: text.toList := by
  rcases place_cases text part with ⟨isMissing, noPart⟩ | ⟨place, isPlace, first⟩
  · rw [isMissing]
    exact iff_of_false (by decide) fun starts => noPart starts.isInfix
  · have inside := add_length_le_maxStringSize fits first
    rw [maxStringSize] at inside
    have isStart : Int64.ofNat place = 0 ↔ place = 0 := by
      rw [← Int64.toInt_inj, Int64.toInt_ofNat_of_lt (by omega), Int64.toInt_zero]
      exact Int.natCast_eq_zero
    rw [isPlace, isStart, first.eq_zero_iff]

/-- There is one piece more than there are occurrences. -/
theorem count_eq_length_sub_one
    (nonempty : part ≠ "") :
    (searchAnswers text part).count =
      .ofNat (Text.pieces part.toList text.toList).length - 1 := by
  have notNil : part.toList ≠ [] := by simpa using nonempty
  have positive := List.length_pos_iff.mpr (Text.pieces_ne_nil notNil text.toList)
  have counted : (searchAnswers text part).count =
      .ofNat (Text.occurrences part.toList text.toList) := rfl
  rw [counted, Text.occurrences, if_neg (by simpa using nonempty)]
  obtain ⟨others, isLength⟩ := Nat.exists_eq_add_of_lt positive
  rw [isLength, Nat.zero_add, Nat.add_sub_cancel, Int64.ofNat_add]
  exact (Int64.add_sub_cancel _ _).symm

/--
For strings within the limit, the operations that look for a string in another one agree: it is a
part exactly if it is found and exactly if it is counted, it is found at the least place from which
on the slice of its length is the string itself, the text starts with it exactly if that place is
the first one, and splitting at it gives one piece more than are counted.
-/
theorem searchAnswers_agree
    (textFits : text.utf8ByteSize ≤ maxStringSize)
    (partFits : part.utf8ByteSize ≤ maxStringSize) :
    (searchAnswers text part).Agree := by
  have textShort : text.length ≤ 1048576 := length_le_maxStringSize textFits
  have partShort : part.length ≤ 1048576 := length_le_maxStringSize partFits
  have few := Text.occurrences_le part.toList text.toList
  rw [String.length_toList] at few
  constructor
  case isPart_iff =>
    rw [place_ne_iff textFits, ← Text.occursIn_iff]
    rfl
  case count_pos_iff =>
    have zeroFits : 0 < 2 ^ 63 := by decide
    have counted : 0 < (searchAnswers text part).count ↔
        0 < Text.occurrences part.toList text.toList :=
      ofNat_lt_ofNat_iff zeroFits (by omega)
    rw [counted, Text.occurrences_pos_iff, place_ne_iff textFits]
  case partFrom_place =>
    intro found
    rcases place_cases text part with ⟨isMissing, -⟩ | ⟨place, isPlace, first⟩
    · exact absurd isMissing found
    · have inside := add_length_le_maxStringSize textFits first
      rw [maxStringSize] at inside
      rw [isPlace]
      exact ⟨ofNat_nonneg (by omega),
        (partFrom_eq_self_iff (by omega) (by omega)).mpr first.here⟩
  case partFrom_ne =>
    intro found earlier nonnegative before
    rcases place_cases text part with ⟨isMissing, -⟩ | ⟨place, isPlace, first⟩
    · exact absurd isMissing found
    · have inside := add_length_le_maxStringSize textFits first
      rw [maxStringSize] at inside
      obtain ⟨number, fits, rfl⟩ := exists_eq_ofNat nonnegative
      rw [isPlace, ofNat_lt_ofNat_iff fits (by omega)] at before
      rw [Ne, partFrom_eq_self_iff (by omega) (by omega)]
      exact first.notBefore number before
  case starts_iff =>
    rw [place_eq_zero_iff textFits, ← List.isPrefixOf_iff_prefix]
    rfl
  case count_of_split =>
    intro nonempty pieces splits
    have notNil : part.toList ≠ [] := by simpa using nonempty
    obtain ⟨-, rfl⟩ := (StringMethod.splitAt_eq_ok_iff notNil).mp splits
    refine ⟨_, rfl, ?_⟩
    rw [count_eq_length_sub_one nonempty, List.length_map]

/-- A string that overlaps itself in the text: it is counted once, at the second character. -/
theorem searchAnswers_agree_overlapping :
    let answers := searchAnswers "éaéaéa" "aéa"
    "éaéaéa".utf8ByteSize ≤ maxStringSize ∧ "aéa".utf8ByteSize ≤ maxStringSize ∧
      answers.Agree ∧ answers.place = 1 ∧ answers.count = 1 ∧
      partFrom "éaéaéa" "aéa" 1 = .ok (.str "aéa") := by
  intro answers
  have agree : answers.Agree := searchAnswers_agree (by decide) (by decide)
  have isPlace : answers.place = 1 := by cbv
  have isCount : answers.count = 1 := by cbv
  have isPart := (agree.partFrom_place (by rw [isPlace]; decide)).2
  rw [isPlace] at isPart
  exact ⟨by decide, by decide, agree, isPlace, isCount, isPart⟩

end TemplatedMarkup
