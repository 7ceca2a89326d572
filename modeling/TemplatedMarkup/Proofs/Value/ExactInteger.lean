import TemplatedMarkup.Proofs.Value.Comparison
import TemplatedMarkup.Proofs.Value.Integer

/-!
# Exact integers of values

A value that is an integer stands for an unbounded one.  Sums of values are exact where they are
integers, and the least or the greatest of several integers is what its name says.
-/

namespace TemplatedMarkup

/-! ## Exact integers -/

namespace Value

/-- The exact integer that a value is; a truth value counts as zero or one. -/
def exactInteger? (value : Value) : Option Int :=
  value.integer?.map Int64.toInt

theorem exactInteger?_of_integer?
    {value : Value}
    {word : Int64}
    (isInteger : value.integer? = some word) :
    value.exactInteger? = some word.toInt :=
  congrArg (Option.map Int64.toInt) isInteger

theorem exactInteger?_of_number?
    {value : Value}
    {word : Int64}
    (isNumber : value.number? = some (.int word)) :
    value.exactInteger? = some word.toInt := by
  cases value <;> cases isNumber <;> rfl

theorem eq_float_of_number?
    {value : Value}
    {number : Float}
    (isNumber : value.number? = some (.float number)) :
    value = .float number := by
  cases value <;> cases isNumber
  rfl

theorem fitsInt64_of_exactInteger?
    {value : Value}
    {exact : Int}
    (isInteger : value.exactInteger? = some exact) :
    fitsInt64 exact = true := by
  obtain ⟨word, -, rfl⟩ := Option.map_eq_some_iff.mp isInteger
  exact fitsInt64_toInt word

/-- An integer that is computed exactly, or refused. -/
theorem gives_exactInteger?_ofExact (exact : Int) :
    Gives (fun result => result.exactInteger? = some exact) (ofExact exact) := by
  unfold ofExact
  split
  · rename_i fits
    exact .ok (congrArg some (toInt_ofInt_of_fitsInt64 fits))
  · exact .error _

/-! ## Sums -/

/--
What terms add up to: integers exactly, and lists to one behind the other.  All other sums hold no
integers: those of strings, and those with a double among the terms.
-/
inductive IsSum : List Value → Value → Prop
  /-- One term is its own sum. -/
  | one (term : Value) : IsSum [term] term
  /-- Integers add up exactly. -/
  | integers {terms : List Value} {numbers : List Int} {total : Value}
      (areIntegers : terms.map exactInteger? = numbers.map some)
      (isTotal : total.exactInteger? = some numbers.sum) :
      IsSum terms total
  /-- Lists are joined. -/
  | lists (lists : List (List Value)) : IsSum (lists.map .list) (.list lists.flatten)
  /-- A double makes the sum a double. -/
  | double {terms : List Value} (total : Float)
      (among : ∃ term ∈ terms, term.kind = .float) :
      IsSum terms (.float total)
  /-- Strings are joined. -/
  | strings {terms : List Value} (total : String)
      (areStrings : ∀ term ∈ terms, term.kind = .str) :
      IsSum terms (.str total)

namespace IsSum

variable
  {terms : List Value}
  {total term : Value}

/-- A sum that is an integer is one of integers. -/
theorem of_exactInteger?
    {exact : Int}
    (isSum : IsSum terms total)
    (isInteger : total.exactInteger? = some exact) :
    ∃ numbers : List Int, terms.map exactInteger? = numbers.map some ∧ numbers.sum = exact := by
  cases isSum with
  | one => exact ⟨[exact], by simp [isInteger], by simp⟩
  | integers areIntegers isTotal =>
      exact ⟨_, areIntegers, Option.some.inj (isTotal.symm.trans isInteger)⟩
  | lists | double | strings => cases isInteger

/-- A sum that is a list is one of lists. -/
theorem of_list
    {joined : List Value}
    (isSum : IsSum terms (.list joined)) :
    ∃ lists : List (List Value), terms = lists.map .list ∧ lists.flatten = joined := by
  cases isSum with
  | one => exact ⟨[joined], by simp, by simp⟩
  | integers _ isTotal => cases isTotal
  | lists lists => exact ⟨lists, rfl, rfl⟩

/-- A sum that is a double has one among its terms. -/
theorem of_float
    {number : Float}
    (isSum : IsSum terms (.float number)) :
    ∃ term ∈ terms, term.kind = .float := by
  cases isSum with
  | one => exact ⟨_, List.mem_singleton_self _, rfl⟩
  | integers _ isTotal => cases isTotal
  | double _ among => exact among

/-- A sum that is a string is one of strings. -/
theorem of_str
    {text : String}
    (isSum : IsSum terms (.str text)) :
    ∀ term ∈ terms, term.kind = .str := by
  cases isSum with
  | one => exact List.forall_mem_singleton.mpr rfl
  | integers _ isTotal => cases isTotal
  | strings _ areStrings => exact areStrings

/-- A term that is added to a sum makes the sum of one term more. -/
theorem gives_add
    (isSum : IsSum terms total)
    (term : Value) :
    Gives (IsSum (terms ++ [term])) (total.add term) := by
  unfold add
  split
  · rename_i left right isLeft isRight
    obtain ⟨numbers, areIntegers, sum⟩ := isSum.of_exactInteger? (exactInteger?_of_number? isLeft)
    have stillIntegers : (terms ++ [term]).map exactInteger? =
        (numbers ++ [right.toInt]).map some := by
      simp [areIntegers, exactInteger?_of_number? isRight]
    refine (gives_exactInteger?_ofExact _).mono fun result isResult => ?_
    exact .integers stillIntegers (by simpa [sum] using isResult)
  · rename_i left right notIntegers isLeft isRight
    refine .ok (.double _ ?_)
    cases left with
    | float number =>
        rw [eq_float_of_number? isLeft] at isSum
        obtain ⟨among, isAmong, isDouble⟩ := isSum.of_float
        exact ⟨among, List.mem_append_left _ isAmong, isDouble⟩
    | int word =>
        cases right with
        | int other => exact (notIntegers word other rfl rfl).elim
        | float number => exact ⟨term, by simp, by rw [eq_float_of_number? isRight, kind]⟩
  · split
    · refine (Gives.any _).bind fun _ _ => .ok (.strings _ ?_)
      exact List.forall_mem_append.mpr ⟨isSum.of_str, List.forall_mem_singleton.mpr rfl⟩
    · rename_i joined others _ _
      obtain ⟨lists, rfl, rfl⟩ := isSum.of_list
      refine (Gives.any _).bind fun _ _ => (Gives.any _).bind fun _ _ => .ok ?_
      simpa using IsSum.lists (lists ++ [others])
    · exact .error _

end IsSum

/-- A fold of additions gives the sum of the start and all items. -/
theorem gives_isSum_foldlM (start : Value) (items : List Value) :
    Gives (IsSum (start :: items)) (items.foldlM add start) := by
  have folded : Gives (IsSum ([start] ++ items)) (items.foldlM add start) :=
    .foldlM_append (fun _ item _ isSum => isSum.gives_add item) (.one start) items
  exact folded

/-! ## Least and greatest values -/

/--
A value is chosen from others: it is one of them, and if all are integers, then no other one is on
the wanted side of it.
-/
structure IsChosen (wanted : Ordering) (values : List Value) (chosen : Value) : Prop where
  /-- The chosen value is one of them. -/
  among : chosen ∈ values
  /-- Of integers, none is on the wanted side. -/
  unbeaten : (∀ value ∈ values, (value.exactInteger?).isSome) → ∀ value ∈ values,
    ∀ number ∈ value.exactInteger?, ∀ best ∈ chosen.exactInteger?, Ord.compare number best ≠ wanted

/-- Integers are compared exactly. -/
theorem compare_of_exactInteger?
    {left right : Value}
    {leftExact rightExact : Int}
    (isLeft : left.exactInteger? = some leftExact)
    (isRight : right.exactInteger? = some rightExact) :
    left.compare right = .ok (Ord.compare leftExact rightExact) := by
  have isNumber {value : Value} {exact : Int} (isInteger : value.exactInteger? = some exact) :
      ∃ word, value.number? = some (.int word) ∧ word.toInt = exact := by
    cases value <;> cases isInteger <;> exact ⟨_, rfl, rfl⟩
  obtain ⟨leftWord, leftNumber, rfl⟩ := isNumber isLeft
  obtain ⟨rightWord, rightNumber, rfl⟩ := isNumber isRight
  exact compare_numbers leftNumber rightNumber

/-- An order other than equality is handed on. -/
theorem compare_trans_of_eq
    {first middle last : Int}
    {wanted : Ordering}
    (before : Ord.compare first middle = wanted)
    (behind : Ord.compare middle last = wanted) :
    Ord.compare first last = wanted := by
  cases wanted with
  | lt => exact Std.TransCmp.lt_trans before behind
  | eq => exact Std.TransCmp.eq_trans before behind
  | gt => exact Std.TransCmp.gt_trans before behind

namespace IsChosen

variable
  {wanted : Ordering}
  {values : List Value}
  {best : Value}

/-- No integer is on a side of itself. -/
theorem not_beaten_self
    {value : Value}
    (differs : wanted ≠ .eq) :
    ∀ number ∈ value.exactInteger?, ∀ best ∈ value.exactInteger?,
      Ord.compare number best ≠ wanted := by
  intro number isNumber best isBest
  obtain rfl := Option.mem_unique isNumber isBest
  rw [Std.compare_self]
  exact differs.symm

theorem single (value : Value) (differs : wanted ≠ .eq) : IsChosen wanted [value] value where
  among := List.mem_singleton_self value
  unbeaten _ := List.forall_mem_singleton.mpr (not_beaten_self differs)

/-- The better one of the best value so far and one value more is the best value of all. -/
theorem gives_better
    (chosen : IsChosen wanted values best)
    (differs : wanted ≠ .eq)
    (value : Value) :
    Gives (IsChosen wanted (values ++ [value])) (do
      return if (← value.compare best) = wanted then value else best) := by
  intro result succeeds
  obtain ⟨order, compared, isResult⟩ := exists_of_bind_eq_ok succeeds
  obtain rfl := Except.ok.inj isResult
  have exactly {number other : Int} (isNumber : value.exactInteger? = some number)
      (isOther : best.exactInteger? = some other) : Ord.compare number other = order :=
    Except.ok.inj ((compare_of_exactInteger? isNumber isOther).symm.trans compared)
  split
  · rename_i better
    refine ⟨by simp, fun areIntegers => ?_⟩
    rw [List.forall_mem_append, List.forall_mem_singleton] at areIntegers ⊢
    refine ⟨fun other among number isNumber exact isValue beats => ?_, not_beaten_self differs⟩
    obtain ⟨least, isBest⟩ := Option.isSome_iff_exists.mp (areIntegers.1 best chosen.among)
    refine chosen.unbeaten areIntegers.1 other among number isNumber least isBest ?_
    exact compare_trans_of_eq beats ((exactly isValue isBest).trans better)
  · rename_i notBetter
    refine ⟨by simp [chosen.among], fun areIntegers => ?_⟩
    rw [List.forall_mem_append, List.forall_mem_singleton] at areIntegers ⊢
    refine ⟨chosen.unbeaten areIntegers.1, fun number isNumber exact isBest beats => ?_⟩
    exact notBetter ((exactly isNumber isBest).symm.trans beats)

end IsChosen

end Value
end TemplatedMarkup
