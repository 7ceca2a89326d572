import TemplatedMarkup.Builtin.Method
import TemplatedMarkup.Proofs.Outcome
import TemplatedMarkup.Proofs.Text.Size

/-!
# Sizes of the strings that methods give

Methods that replace and join predict the size of their result and keep the limit on strings.  The
others do so only in part: a change of case is not checked at all, filling up with zeros counts
characters and not bytes, and a format is checked at its fields but not at the text behind the last
one.
-/

namespace TemplatedMarkup

open String (utf8Len utf8Len_append utf8Len_cons)

/-! ## Checked sizes -/

/-- A size that passes its check keeps the limit. -/
theorem gives_checkStringSize (size : Nat) :
    Gives (fun _ => size ≤ maxStringSize) (checkStringSize size) := by
  unfold checkStringSize
  split
  · exact .error _
  · rename_i notLarger
    exact .ok (Nat.le_of_not_lt notLarger)

/-- A count that stays below the limit on strings has not reached the greatest count. -/
theorem saturate_eq_of_fits
    {size : Nat}
    (fits : saturate size ≤ maxStringSize) :
    saturate size = size := by
  rw [saturate, maxCount, maxStringSize] at *
  omega

/-- A count is compared with a small bound as if it were not cut off. -/
theorem saturate_le_iff
    {count bound : Nat}
    (below : bound < maxCount) :
    saturate count ≤ bound ↔ count ≤ bound := by
  rw [saturate]
  omega

/-- The limit on strings is checked for the exact size. -/
theorem checkStringSize_saturate_eq_ok_iff {size : Nat} :
    checkStringSize (saturate size) = .ok () ↔ size ≤ maxStringSize := by
  rw [← saturate_le_iff (by decide), checkStringSize]
  split
  · rename_i larger
    exact iff_of_false nofun (Nat.not_le_of_lt larger)
  · rename_i notLarger
    exact iff_of_true rfl (Nat.le_of_not_lt notLarger)

/-- A size beyond the limit on strings is refused with the size, or with the greatest count. -/
theorem checkStringSize_saturate_of_lt
    {size : Nat}
    (larger : maxStringSize < size) :
    checkStringSize (saturate size) = .error (.stringTooLong (saturate size) maxStringSize) := by
  have notSmaller : ¬saturate size ≤ maxStringSize := by
    rw [saturate_le_iff (by decide)]
    exact Nat.not_le_of_lt larger
  exact if_pos (Nat.lt_of_not_le notSmaller)

/-- The limit on lists is checked for the exact length. -/
theorem checkLength_saturate_eq_ok_iff {length : Nat} :
    checkLength (saturate length) = .ok () ↔ length ≤ maxSequenceLength := by
  rw [← saturate_le_iff (by decide), checkLength]
  split
  · rename_i longer
    exact iff_of_false nofun (Nat.not_le_of_lt longer)
  · rename_i notLonger
    exact iff_of_true rfl (Nat.le_of_not_lt notLonger)

/-- A value is no string of more than some bytes. -/
def Value.IsStringWithin (bound : Nat) (value : Value) : Prop :=
  ∀ text, value = .str text → text.utf8ByteSize ≤ bound

theorem Value.isStringWithin_str
    {bound : Nat}
    {text : String}
    (fits : text.utf8ByteSize ≤ bound) :
    (Value.str text).IsStringWithin bound := by
  rintro _ ⟨⟩
  exact fits

theorem Value.isStringWithin_ofText
    {bound : Nat}
    {text : List Char}
    (fits : utf8Len text ≤ bound) :
    (Value.ofText text).IsStringWithin bound :=
  isStringWithin_str (by rwa [String.utf8ByteSize_ofList])

/-! ## Formats -/

namespace Format

/-- A field is written only if the output keeps the limit. -/
theorem gives_writeField
    (arguments : List Value)
    (output : String)
    (position : Nat) :
    Gives (·.utf8ByteSize ≤ maxStringSize) (writeField arguments output position) := by
  unfold writeField
  split
  · exact .error _
  · refine (gives_checkStringSize _).bind fun _ fits => .ok ?_
    rwa [saturate_eq_of_fits fits, ← String.utf8ByteSize_append] at fits

/--
The output of a format is within the limit at each field; what is behind the last field may still
be added to it.
-/
theorem gives_write
    (arguments : List Value)
    (automatic : Nat)
    (output : String)
    (format : List Char) :
    Gives (·.utf8ByteSize ≤ max output.utf8ByteSize maxStringSize + utf8Len format)
      (write arguments automatic output format) := by
  induction automatic, output, format using write.induct arguments with
  | case1 automatic output =>
      rw [write]
      exact .ok (by simp)
  | case2 automatic output rest inductionHypothesis
  | case3 automatic output rest inductionHypothesis =>
      rw [write]
      refine inductionHypothesis.mono fun result fits => fits.trans ?_
      rw [String.utf8ByteSize_push, utf8Len_cons, utf8Len_cons]
      simp only [show Char.utf8Size '{' = 1 by decide, show Char.utf8Size '}' = 1 by decide]
      omega
  | case4 automatic output rest notDoubled =>
      rw [write]
      · exact .error _
      · exact notDoubled
  | case5 automatic output rest notDoubled unclosed =>
      rw [write]
      · split
        · exact .error _
        · simp_all
      · exact notDoubled
  | case6 automatic output rest notDoubled head after closing field cause notPosition =>
      rw [write]
      · split <;> simp_all [field]
      · exact notDoubled
  | case7 automatic output rest notDoubled head after closing field position isPosition cause
      notWritten =>
      rw [write]
      · split <;> simp_all [field]
      · exact notDoubled
  | case8 automatic output rest notDoubled head after closing field position isPosition written
      isWritten inductionHypothesis =>
      -- From here on the bound starts anew: all that is written so far is within the limit.
      have fits : written.utf8ByteSize ≤ maxStringSize :=
        gives_writeField arguments output position written isWritten
      have shorter : utf8Len after ≤ utf8Len rest := by
        have isPart := List.dropWhile_sublist (l := rest) (· != '}')
        rw [closing] at isPart
        exact String.utf8Len_le_of_sublist ((List.sublist_cons_self _ _).trans isPart)
      have same : write arguments automatic output ('{' :: rest) =
          write arguments (if field.isEmpty then automatic + 1 else automatic) written after := by
        rw [write]
        · split <;> simp_all [field]
        · exact notDoubled
      rw [same]
      refine inductionHypothesis.mono fun result isResult => isResult.trans ?_
      rw [utf8Len_cons]
      omega
  | case9 automatic output character rest notOpened notClosed notEnd notStart inductionHypothesis =>
      rw [write]
      · refine inductionHypothesis.mono fun result fits => fits.trans ?_
        rw [String.utf8ByteSize_push, utf8Len_cons]
        omega
      all_goals assumption

end Format

/-! ## Methods -/

namespace StringMethod

open Value

/-- The size that is computed before a replacement is that of its result. -/
theorem replaced_size (text pattern replacement : String) :
    text.utf8ByteSize - Text.occurrences pattern.toList text.toList * pattern.utf8ByteSize +
        Text.occurrences pattern.toList text.toList * replacement.utf8ByteSize =
      utf8Len (Text.replace pattern.toList replacement.toList text.toList) := by
  have size := Text.utf8Len_replace pattern.toList replacement.toList text.toList
  have inside := Text.occurrences_mul_utf8Len_le pattern.toList text.toList
  simp only [Text.utf8Len_toList] at size inside
  omega

/-- A replacement is given exactly when its result keeps the limit. -/
theorem replaced_eq_ok_iff
    {text pattern replacement : String}
    {value : Value} :
    replaced text pattern replacement = .ok value ↔
      utf8Len (Text.replace pattern.toList replacement.toList text.toList) ≤ maxStringSize ∧
        value = .ofText (Text.replace pattern.toList replacement.toList text.toList) := by
  refine bind_check_eq_ok_iff.trans (and_congr_left fun _ => ?_)
  rw [replaced_size, checkStringSize_saturate_eq_ok_iff]

/-- A replacement whose result is beyond the limit is refused with its size. -/
theorem replaced_of_lt
    {text pattern replacement : String}
    (larger : maxStringSize <
      utf8Len (Text.replace pattern.toList replacement.toList text.toList)) :
    replaced text pattern replacement = .error (.stringTooLong
      (saturate (utf8Len (Text.replace pattern.toList replacement.toList text.toList)))
      maxStringSize) := by
  simp only [replaced, replaced_size, checkStringSize_saturate_of_lt larger]
  rfl

/-- A replacement keeps the limit. -/
theorem gives_replaced (text pattern replacement : String) :
    Gives (IsStringWithin maxStringSize) (replaced text pattern replacement) := by
  intro value succeeds
  obtain ⟨fits, rfl⟩ := replaced_eq_ok_iff.mp succeeds
  exact isStringWithin_ofText fits

/-- The size of joined strings. -/
theorem utf8ByteSize_join (separator : String) (parts : List String) :
    (Text.join separator parts).utf8ByteSize =
      (parts.map String.utf8ByteSize).sum + (parts.length - 1) * separator.utf8ByteSize := by
  rw [Text.join, String.utf8ByteSize_ofList, Text.utf8Len_intercalate, List.map_map,
    List.length_map, Text.utf8Len_toList]
  simp only [Function.comp_def, Text.utf8Len_toList]

/-- One more string joined takes its own size, and that of a separator in front of it. -/
theorem utf8ByteSize_join_concat (separator : String) (parts : List String) (part : String) :
    (Text.join separator (parts ++ [part])).utf8ByteSize =
      (Text.join separator parts).utf8ByteSize + part.utf8ByteSize +
        if parts.isEmpty then 0 else separator.utf8ByteSize := by
  rw [utf8ByteSize_join, utf8ByteSize_join]
  cases parts with
  | nil => simp
  | cons first parts =>
      simp only [List.map_append, List.map_cons, List.map_nil, List.sum_append, List.sum_cons,
        List.sum_nil, List.length_append, List.length_cons, List.length_nil, List.isEmpty_cons,
        Bool.false_eq_true, if_false, Nat.add_sub_cancel]
      ring

/-- Joined strings are no larger than with more strings behind them. -/
theorem utf8ByteSize_join_le_append (separator : String) (front back : List String) :
    (Text.join separator front).utf8ByteSize ≤
      (Text.join separator (front ++ back)).utf8ByteSize := by
  have gaps : (front.length - 1) * separator.utf8ByteSize ≤
      (front.length + back.length - 1) * separator.utf8ByteSize :=
    Nat.mul_le_mul_right _ (by omega)
  rw [utf8ByteSize_join, utf8ByteSize_join, List.map_append, List.sum_append, List.length_append]
  omega

/-- The collected strings of a join, last first, with the size that they have when joined. -/
structure IsCollected (separator : String) (collected : List String × Nat) : Prop where
  /-- The size is that of the joined strings. -/
  size_eq : collected.2 = (Text.join separator collected.1.reverse).utf8ByteSize
  /-- It keeps the limit. -/
  fits : collected.2 ≤ maxStringSize

/-- The running size with one more string is that of the strings joined so far. -/
theorem joinItem_str
    {separator : String}
    {parts : List String}
    {size : Nat}
    (isCollected : IsCollected separator (parts, size))
    (text : String) :
    joinItem separator (parts, size) (.str text) = do
      let whole := (Text.join separator (text :: parts).reverse).utf8ByteSize
      checkStringSize (saturate whole)
      return (text :: parts, saturate whole) := by
  have total : (Text.join separator (text :: parts).reverse).utf8ByteSize =
      size + text.utf8ByteSize + if parts.isEmpty then 0 else separator.utf8ByteSize := by
    rw [List.reverse_cons, utf8ByteSize_join_concat, ← isCollected.size_eq, List.isEmpty_reverse]
  have counted : saturate (saturate (size + text.utf8ByteSize) +
        if parts.isEmpty then 0 else separator.utf8ByteSize) =
      saturate (Text.join separator (text :: parts).reverse).utf8ByteSize := by
    rw [total]
    simp only [saturate]
    omega
  simp only [joinItem, counted]

/-- An item is collected exactly if it is a string with which the joined ones keep the limit. -/
theorem joinItem_eq_ok_iff
    {separator : String}
    {collected next : List String × Nat}
    (isCollected : IsCollected separator collected)
    {item : Value} :
    joinItem separator collected item = .ok next ↔
      ∃ text, item = .str text ∧ next.1 = text :: collected.1 ∧ IsCollected separator next := by
  obtain ⟨parts, size⟩ := collected
  constructor
  · intro succeeds
    cases item with
    | str text =>
        rw [joinItem_str isCollected] at succeeds
        obtain ⟨checked, rfl⟩ := bind_check_eq_ok_iff.mp succeeds
        have fits := checkStringSize_saturate_eq_ok_iff.mp checked
        have exact := saturate_eq_of_fits ((Nat.min_le_left _ _).trans fits)
        exact ⟨text, rfl, rfl, exact, exact.le.trans fits⟩
    | none | bool | int | float | list | dict | function => contradiction
  · rintro ⟨text, rfl, isNext, isSize, fits⟩
    rw [isNext] at isSize
    rw [isSize] at fits
    have exact := saturate_eq_of_fits ((Nat.min_le_left _ _).trans fits)
    rw [joinItem_str isCollected]
    refine bind_check_eq_ok_iff.mpr ⟨checkStringSize_saturate_eq_ok_iff.mpr fits, ?_⟩
    exact Prod.ext isNext (isSize.trans exact.symm)

/-- Items are collected exactly if they are strings and all of them joined keep the limit. -/
theorem foldlM_joinItem_eq_ok_iff
    {separator : String}
    {collected last : List String × Nat}
    (isCollected : IsCollected separator collected)
    {items : List Value} :
    items.foldlM (joinItem separator) collected = .ok last ↔
      ∃ texts : List String, items = texts.map .str ∧ last.1 = texts.reverse ++ collected.1 ∧
        IsCollected separator last := by
  induction items generalizing collected with
  | nil =>
      constructor
      · intro same
        obtain rfl := Except.ok.inj same
        exact ⟨[], rfl, rfl, isCollected⟩
      · rintro ⟨texts, nothing, isLast, lastCollected⟩
        obtain rfl := List.map_eq_nil_iff.mp nothing.symm
        have sameSize : last.2 = collected.2 := by
          rw [lastCollected.size_eq, isCollected.size_eq, isLast]
          rfl
        exact congrArg Except.ok (Prod.ext isLast sameSize).symm
  | cons item items inductionHypothesis =>
      rw [List.foldlM_cons]
      constructor
      · intro succeeds
        obtain ⟨next, stepped, rest⟩ := exists_of_bind_eq_ok succeeds
        obtain ⟨text, rfl, isNext, nextCollected⟩ := (joinItem_eq_ok_iff isCollected).mp stepped
        obtain ⟨texts, rfl, isLast, lastCollected⟩ := (inductionHypothesis nextCollected).mp rest
        exact ⟨text :: texts, rfl, by simp [isLast, isNext], lastCollected⟩
      · rintro ⟨texts, areTexts, isLast, lastCollected⟩
        cases texts with
        | nil => contradiction
        | cons text texts =>
            obtain ⟨rfl, rfl⟩ := List.cons.inj areTexts
            -- What is collected before the last item is a start of what is collected with it.
            have fits : (Text.join separator (text :: collected.1).reverse).utf8ByteSize ≤
                maxStringSize := by
              have longer :=
                utf8ByteSize_join_le_append separator (text :: collected.1).reverse texts
              have isWhole : last.1.reverse = (text :: collected.1).reverse ++ texts := by
                simp [isLast]
              rw [← isWhole, ← lastCollected.size_eq] at longer
              exact longer.trans lastCollected.fits
            have nextCollected : IsCollected separator (text :: collected.1, _) := ⟨rfl, fits⟩
            rw [(joinItem_eq_ok_iff isCollected).mpr ⟨text, rfl, rfl, nextCollected⟩]
            refine (inductionHypothesis nextCollected).mpr ⟨texts, rfl, ?_, lastCollected⟩
            simp [isLast]

/-- Items are joined exactly if they are strings that keep the limit when they are joined. -/
theorem joined_eq_ok_iff
    {separator : String}
    {items : List Value}
    {value : Value} :
    joined separator items = .ok value ↔
      ∃ texts : List String, items = texts.map .str ∧
        (Text.join separator texts).utf8ByteSize ≤ maxStringSize ∧
        value = .str (Text.join separator texts) := by
  have starts : IsCollected separator ([], 0) := ⟨rfl, Nat.zero_le _⟩
  unfold joined
  constructor
  · intro succeeds
    obtain ⟨last, folded, same⟩ := exists_of_bind_eq_ok succeeds
    obtain rfl := Except.ok.inj same
    obtain ⟨texts, rfl, isLast, lastCollected⟩ := (foldlM_joinItem_eq_ok_iff starts).mp folded
    have isWhole : last.1.reverse = texts := by simp [isLast]
    rw [isWhole]
    refine ⟨texts, rfl, ?_, rfl⟩
    rw [← isWhole, ← lastCollected.size_eq]
    exact lastCollected.fits
  · rintro ⟨texts, rfl, fits, rfl⟩
    have lastCollected : IsCollected separator
        (texts.reverse, (Text.join separator texts).utf8ByteSize) :=
      ⟨by rw [List.reverse_reverse], fits⟩
    rw [(foldlM_joinItem_eq_ok_iff starts).mpr ⟨texts, rfl, by simp, lastCollected⟩]
    exact congrArg (fun parts => Except.ok (Value.str (Text.join separator parts)))
      texts.reverse_reverse

/--
Strings that exceed the limit when they are joined are refused at the first of them with which they
do, with the size up to there.
-/
theorem foldlM_joinItem_of_lt
    {separator : String}
    {front texts : List String}
    (fits : (Text.join separator front).utf8ByteSize ≤ maxStringSize)
    (larger : maxStringSize < (Text.join separator (front ++ texts)).utf8ByteSize) :
    ∃ start text rest, texts = start ++ text :: rest ∧
      (Text.join separator (front ++ start)).utf8ByteSize ≤ maxStringSize ∧
      maxStringSize < (Text.join separator (front ++ start ++ [text])).utf8ByteSize ∧
      (texts.map Value.str).foldlM (joinItem separator)
          (front.reverse, (Text.join separator front).utf8ByteSize) =
        .error (.stringTooLong
          (saturate (Text.join separator (front ++ start ++ [text])).utf8ByteSize)
          maxStringSize) := by
  induction texts generalizing front with
  | nil =>
      rw [List.append_nil] at larger
      exact absurd fits (Nat.not_le_of_lt larger)
  | cons text texts inductionHypothesis =>
      have isCollected : IsCollected separator
          (front.reverse, (Text.join separator front).utf8ByteSize) :=
        ⟨by rw [List.reverse_reverse], fits⟩
      have whole : (text :: front.reverse).reverse = front ++ [text] := by simp
      rw [List.map_cons, List.foldlM_cons]
      by_cases fitsNext : (Text.join separator (front ++ [text])).utf8ByteSize ≤ maxStringSize
      · have collected : joinItem separator
            (front.reverse, (Text.join separator front).utf8ByteSize) (.str text) =
              .ok ((front ++ [text]).reverse,
                (Text.join separator (front ++ [text])).utf8ByteSize) := by
          refine (joinItem_eq_ok_iff isCollected).mpr ⟨text, rfl, by simp, ?_, fitsNext⟩
          rw [List.reverse_reverse]
        rw [List.append_cons front text texts] at larger
        obtain ⟨start, next, rest, rfl, startFits, nextLarger, refused⟩ :=
          inductionHypothesis fitsNext larger
        refine ⟨text :: start, next, rest, rfl, ?_, ?_, ?_⟩
        · rwa [List.append_cons front text start]
        · rwa [List.append_cons front text start]
        · rw [collected, List.append_cons front text start]
          exact refused
      · refine ⟨[], text, texts, rfl, by rwa [List.append_nil], ?_, ?_⟩
        · rw [List.append_nil]
          exact Nat.lt_of_not_le fitsNext
        · rw [List.append_nil, joinItem_str isCollected, whole]
          simp only [checkStringSize_saturate_of_lt (Nat.lt_of_not_le fitsNext)]
          rfl

/-- A join keeps the limit. -/
theorem gives_joined (separator : String) (items : List Value) :
    Gives (IsStringWithin maxStringSize) (joined separator items) := by
  intro value succeeds
  obtain ⟨texts, -, fits, rfl⟩ := joined_eq_ok_iff.mp succeeds
  exact isStringWithin_str fits

/-- A text that is filled up with zeros has a byte for each of them. -/
theorem utf8Len_zeroFilled (text : List Char) (width : Nat) :
    utf8Len (zeroFilled text width) = utf8Len text + (width - text.length) := by
  have zeros (count : Nat) : utf8Len (List.replicate count '0') = count := by
    rw [Text.utf8Len_replicate, Text.utf8Size_of_ascii (by decide), Nat.mul_one]
  unfold zeroFilled
  split <;> simp only [utf8Len_append, utf8Len_cons, List.cons_append, zeros] <;> omega

/--
The most bytes of a string that a method gives, for a text whose characters have case forms at most
a number of times as large as they are.
-/
def sizeBound (factor : Nat) (text : String) : StringMethod → Nat
  | .upper | .lower | .title | .capitalize => factor * text.utf8ByteSize
  | .zfill => maxStringSize + (text.utf8ByteSize - text.length)
  | .format => maxStringSize + text.utf8ByteSize
  | _ => maxStringSize

/-- A method gives no string larger than its bound. -/
theorem gives_call_within
    {factor : Nat}
    {text : String}
    (positive : 0 < factor)
    (grows : ∀ character ∈ text.toList, Text.GrowsBy factor character)
    (fits : text.utf8ByteSize ≤ maxStringSize)
    (method : StringMethod)
    (arguments : List Value) :
    Gives (IsStringWithin (method.sizeBound factor text)) (method.call text arguments) := by
  -- What is left of a method that only has to get one more value.
  have onceGiven {Given : Type} {outcome : Except EvalError Given} {result : Given → Value}
      {bound : Nat} (within : ∀ given, (result given).IsStringWithin bound) :
      Gives (IsStringWithin bound) (outcome >>= fun given => pure (result given)) :=
    (Gives.any outcome).bind fun given _ => .ok (within given)
  have fitsList : utf8Len text.toList ≤ maxStringSize := by rwa [Text.utf8Len_toList]
  unfold call
  cases method with
  | upper =>
      refine .ok (isStringWithin_ofText ?_)
      simpa [sizeBound, Text.utf8Len_toList] using Text.utf8Len_upper_le grows
  | lower =>
      refine .ok (isStringWithin_ofText ?_)
      simpa [sizeBound, Text.utf8Len_toList] using Text.utf8Len_lower_le positive grows
  | title =>
      refine .ok (isStringWithin_ofText ?_)
      simpa [sizeBound, Text.utf8Len_toList] using Text.utf8Len_title_le positive grows
  | capitalize =>
      refine .ok (isStringWithin_ofText ?_)
      simpa [sizeBound, Text.utf8Len_toList] using Text.utf8Len_capitalize_le positive grows
  | strip =>
      exact onceGiven fun drops =>
        isStringWithin_ofText ((Text.utf8Len_trimWhere_le drops _).trans fitsList)
  | lstrip =>
      exact onceGiven fun drops => isStringWithin_ofText
        ((String.utf8Len_le_of_sublist (List.dropWhile_sublist drops)).trans fitsList)
  | rstrip =>
      exact onceGiven fun drops =>
        isStringWithin_ofText ((Text.utf8Len_trimEndWhere_le drops _).trans fitsList)
  | replace =>
      refine (Gives.any _).bind fun pattern _ => (Gives.any _).bind fun replacement _ => ?_
      exact gives_replaced text pattern replacement
  | zfill =>
      refine (Gives.any _).bind fun width _ => (gives_checkStringSize _).bind fun _ isWidth => ?_
      refine .ok (isStringWithin_ofText ?_)
      have short := Text.length_le_utf8Len text.toList
      rw [Text.utf8Len_toList, String.length_toList] at short
      rw [utf8Len_zeroFilled, sizeBound, Text.utf8Len_toList, String.length_toList]
      omega
  | join => exact (Gives.any _).bind fun value _ => (Gives.any _).bind fun items _ =>
      gives_joined text items
  | format =>
      refine (Format.gives_write arguments 0 "" text.toList).bind fun result within => .ok ?_
      rw [Text.utf8Len_toList] at within
      exact isStringWithin_str within
  | split =>
      simp only
      split
      · exact (Gives.any _).bind fun _ _ => .ok nofun
      · exact (Gives.any _).bind fun _ _ => .ok nofun
      · refine (Gives.any _).bind fun separator _ => ?_
        unfold splitAt
        split
        · exact .error _
        · exact (Gives.any _).bind fun _ _ => .ok nofun
  | splitlines => exact (Gives.any _).bind fun _ _ => .ok nofun
  | startswith | endswith | find | count => exact onceGiven fun _ => nofun
  | isdigit | isalpha => exact .ok nofun

end StringMethod

/-! ## Predicted sizes -/

/--
A replacement predicts its size: what is left of a text without the occurrences of a pattern, and a
replacement for each of them, are as large as the text with the pattern replaced.  It is refused
exactly if that is beyond the limit.
-/
structure PredictsReplacement (text pattern replacement : String) : Prop where
  /-- All occurrences together are no larger than the text, so that the difference is exact. -/
  inside : Text.occurrences pattern.toList text.toList * pattern.utf8ByteSize ≤ text.utf8ByteSize
  size : text.utf8ByteSize - Text.occurrences pattern.toList text.toList * pattern.utf8ByteSize +
      Text.occurrences pattern.toList text.toList * replacement.utf8ByteSize =
    utf8Len (Text.replace pattern.toList replacement.toList text.toList)
  answer : callMethod (.str text) "replace" [.str pattern, .str replacement] =
    if utf8Len (Text.replace pattern.toList replacement.toList text.toList) ≤ maxStringSize then
      .ok (.ofText (Text.replace pattern.toList replacement.toList text.toList))
    else
      .error (.stringTooLong
        (saturate (utf8Len (Text.replace pattern.toList replacement.toList text.toList)))
        maxStringSize)

/--
A join predicts its size: the running size is that of the strings joined so far.  Strings are joined
if the limit is kept behind the last of them, and are refused at the first one behind which it is
not.
-/
structure PredictsJoin (separator : String) (value : Value) (texts : List String) : Prop where
  /-- Behind the last string, the running size is that of the result. -/
  size : (Text.join separator texts).utf8ByteSize ≤ maxStringSize →
    (texts.map Value.str).foldlM (StringMethod.joinItem separator) ([], 0) =
      .ok (texts.reverse, (Text.join separator texts).utf8ByteSize)
  joined : (Text.join separator texts).utf8ByteSize ≤ maxStringSize →
    callMethod (.str separator) "join" [value] = .ok (.str (Text.join separator texts))
  refused : maxStringSize < (Text.join separator texts).utf8ByteSize →
    ∃ start text rest, texts = start ++ text :: rest ∧
      (Text.join separator start).utf8ByteSize ≤ maxStringSize ∧
      maxStringSize < (Text.join separator (start ++ [text])).utf8ByteSize ∧
      callMethod (.str separator) "join" [value] = .error (.stringTooLong
        (saturate (Text.join separator (start ++ [text])).utf8ByteSize) maxStringSize)

theorem predictsReplacement (text pattern replacement : String) :
    PredictsReplacement text pattern replacement where
  inside := by
    simpa only [Text.utf8Len_toList] using
      Text.occurrences_mul_utf8Len_le pattern.toList text.toList
  size := StringMethod.replaced_size text pattern replacement
  answer := by
    change StringMethod.replaced text pattern replacement = _
    split
    · rename_i fits
      exact StringMethod.replaced_eq_ok_iff.mpr ⟨fits, rfl⟩
    · rename_i larger
      exact StringMethod.replaced_of_lt (Nat.lt_of_not_le larger)

theorem predictsJoin
    {value : Value}
    {texts : List String}
    (areItems : value.items = .ok (texts.map .str))
    (separator : String) :
    PredictsJoin separator value texts := by
  have call : callMethod (.str separator) "join" [value] =
      StringMethod.joined separator (texts.map .str) := by
    change (value.items >>= StringMethod.joined separator) = _
    rw [areItems]
    rfl
  refine ⟨fun fits => ?_, fun fits => ?_, fun larger => ?_⟩
  · have starts : StringMethod.IsCollected separator ([], 0) := ⟨rfl, Nat.zero_le _⟩
    refine (StringMethod.foldlM_joinItem_eq_ok_iff starts).mpr ⟨texts, rfl, by simp, ?_, fits⟩
    rw [List.reverse_reverse]
  · rw [call]
    exact StringMethod.joined_eq_ok_iff.mpr ⟨texts, rfl, fits, rfl⟩
  · obtain ⟨start, text, rest, isSplit, startFits, exceeds, refused⟩ :=
      @StringMethod.foldlM_joinItem_of_lt separator [] texts (Nat.zero_le maxStringSize) larger
    refine ⟨start, text, rest, isSplit, startFits, exceeds, ?_⟩
    rw [call, StringMethod.joined]
    exact congrArg (· >>= _) refused

/--
Replacing and joining know the size of their result before they write it, for every text, pattern,
replacement and separator.
-/
theorem sizes_predicted
    (text pattern replacement separator : String)
    {value : Value}
    {texts : List String}
    (areItems : value.items = .ok (texts.map .str)) :
    PredictsReplacement text pattern replacement ∧ PredictsJoin separator value texts :=
  ⟨predictsReplacement text pattern replacement, predictsJoin areItems separator⟩

/-- A pattern without characters occurs around each character, and two strings have one separator
between them. -/
theorem sizes_predicted_emptyPattern :
    (Value.list [.str "a", .str "é"]).items = .ok (["a", "é"].map .str) ∧
    "ab".utf8ByteSize - Text.occurrences [] "ab".toList * 0 +
      Text.occurrences [] "ab".toList * "é".utf8ByteSize = 8 ∧
    callMethod (.str "ab") "replace" [.str "", .str "é"] = .ok (.str "éaébé") ∧
    callMethod (.str "--") "join" [.list [.str "a", .str "é"]] = .ok (.str "a--é") := by
  obtain ⟨replacement, join⟩ := sizes_predicted "ab" "" "é" "--"
    (show (Value.list [.str "a", .str "é"]).items = .ok (["a", "é"].map .str) from rfl)
  have replaced : Text.replace "".toList "é".toList "ab".toList = "éaébé".toList := by decide
  have answer := replacement.answer
  have size := replacement.size
  rw [replaced] at answer size
  exact ⟨rfl, size, answer, join.joined (by decide)⟩

/--
A method of a string within the limit gives no string beyond the bound of the method: the limit
itself, but three times the text for a change of case, one more byte for every further byte of a
character when zeros are filled up, and the text of a format on top.  For a text of ASCII the limit
is kept by all methods but formats.
-/
theorem utf8ByteSize_of_callMethod
    {text result name : String}
    {arguments : List Value}
    (fits : text.utf8ByteSize ≤ maxStringSize)
    (succeeds : callMethod (.str text) name arguments = .ok (.str result)) :
    ∃ method, StringMethod.ofName? name = some method ∧
      result.utf8ByteSize ≤ method.sizeBound 3 text ∧
      ((∀ character ∈ text.toList, character.toNat < 128) → method ≠ .format →
        result.utf8ByteSize ≤ maxStringSize) := by
  unfold callMethod at succeeds
  simp only at succeeds
  split at succeeds
  · rename_i method isMethod
    refine ⟨method, isMethod, ?_, fun ascii notFormat => ?_⟩
    · exact StringMethod.gives_call_within (by decide)
        (fun character _ => Text.growsBy_three character) fits method arguments _ succeeds result
        rfl
    · have within : result.utf8ByteSize ≤ method.sizeBound 1 text :=
        StringMethod.gives_call_within (by decide)
          (fun character isThere => Text.growsBy_one (ascii character isThere)) fits method
          arguments _ succeeds result rfl
      have length := Text.utf8Len_of_ascii ascii
      rw [Text.utf8Len_toList, String.length_toList] at length
      cases method
      case format => contradiction
      all_goals
        simp only [StringMethod.sizeBound] at within
        omega
  · contradiction

/-- A sharp s in upper case. -/
theorem utf8ByteSize_of_callMethod_upper :
    callMethod (.str "ß") "upper" [] = .ok (.str "SS") ∧
      "SS".utf8ByteSize ≤ 3 * "ß".utf8ByteSize := by
  have succeeds : callMethod (.str "ß") "upper" [] = .ok (.str "SS") := rfl
  obtain ⟨method, isUpper, within, -⟩ := utf8ByteSize_of_callMethod (by decide) succeeds
  obtain rfl : StringMethod.upper = method := Option.some.inj isUpper
  exact ⟨succeeds, within⟩

/-- A format with a character behind its only field. -/
theorem callMethod_format
    {argument : String}
    (fits : argument.utf8ByteSize ≤ maxStringSize) :
    callMethod (.str "{}!") "format" [.str argument] = .ok (.str (argument.push '!')) := by
  have checked : checkStringSize (saturate (0 + argument.utf8ByteSize)) = .ok () := by
    rw [checkStringSize, if_neg]
    rw [saturate, maxCount]
    omega
  have field : Format.writeField [.str argument] "" 0 = .ok argument := by
    change (checkStringSize (saturate (0 + argument.utf8ByteSize)) >>= fun _ =>
      .ok ("" ++ argument)) = _
    rw [checked, String.empty_append]
    rfl
  have written : formatText "{}!" [.str argument] = .ok (argument.push '!') := by
    rw [formatText, show "{}!".toList = ['{', '}', '!'] from rfl]
    rw [Format.write]
    · split
      · rename_i closing
        simp at closing
      · rename_i after closing
        obtain ⟨rfl, rfl⟩ : '}' = _ ∧ ['!'] = after := by simpa using closing
        simp [Format.fieldPosition, field, Format.write]
    · simp
  change (do return Value.str (← formatText "{}!" [.str argument])) = _
  rw [written]
  rfl

/--
Results beyond the limit: a format with text behind its field, a text of two-byte characters filled
up with zeros, and the upper case of characters with forms of six bytes.
-/
theorem callMethod_exceeds_limit :
    let argument := String.ofList (List.replicate 1048576 'a')
    let accented := String.ofList (List.replicate 524288 'é')
    let iotas := String.ofList (List.replicate 524288 'ΐ')
    (argument.utf8ByteSize = maxStringSize ∧ accented.utf8ByteSize = maxStringSize ∧
      iotas.utf8ByteSize = maxStringSize) ∧
    (∃ result, callMethod (.str "{}!") "format" [.str argument] = .ok (.str result) ∧
      result.utf8ByteSize = maxStringSize + 1) ∧
    (∃ result, callMethod (.str accented) "zfill" [.int 1048576] = .ok (.str result) ∧
      result.utf8ByteSize = maxStringSize + 524288) ∧
    ∃ result, callMethod (.str iotas) "upper" [] = .ok (.str result) ∧
      result.utf8ByteSize = 3 * maxStringSize := by
  intro argument accented iotas
  have argumentSize : argument.utf8ByteSize = maxStringSize := by
    rw [String.utf8ByteSize_ofList, Text.utf8Len_replicate]
    decide
  have accentedSize : accented.utf8ByteSize = maxStringSize := by
    rw [String.utf8ByteSize_ofList, Text.utf8Len_replicate]
    decide
  have iotasSize : iotas.utf8ByteSize = maxStringSize := by
    rw [String.utf8ByteSize_ofList, Text.utf8Len_replicate]
    decide
  refine ⟨⟨argumentSize, accentedSize, iotasSize⟩,
    ⟨argument.push '!', callMethod_format argumentSize.le, ?_⟩, ⟨_, rfl, ?_⟩, ⟨_, rfl, ?_⟩⟩
  · rw [String.utf8ByteSize_push, argumentSize]
    rfl
  · rw [String.utf8ByteSize_ofList, StringMethod.utf8Len_zeroFilled, Text.utf8Len_toList,
      accentedSize, String.length_toList, String.length_ofList, List.length_replicate]
    rfl
  · have size (count : Nat) : utf8Len (Text.upper (List.replicate count 'ΐ')) = count * 6 := by
      induction count with
      | zero => rfl
      | succ count inductionHypothesis =>
          have form : utf8Len (Text.upperForm 'ΐ') = 6 := by decide +kernel
          rw [Text.upper] at inductionHypothesis ⊢
          rw [List.replicate_succ, List.flatMap_cons, utf8Len_append, inductionHypothesis, form]
          omega
    rw [String.utf8ByteSize_ofList, String.toList_ofList, size, maxStringSize]

end TemplatedMarkup
