import TemplatedMarkup.Proofs.Builtin.Sort

/-!
# Built-in functions that do not crash

A call that fails has an error for its caller.  There is one exception: a sort that finds no order
among its values ends the whole program.  It does not happen to a list that is short enough for
insertion, nor to exact values that are ranked by a total preorder.
-/

namespace TemplatedMarkup

open Value

/-- A computation ends with a result or with an error for its caller. -/
abbrev Survives {Result : Type} (outcome : Except EvalError Result) : Prop :=
  FailsWith (fun cause => cause.isCrash = false) outcome

/-! ## Limits and arithmetic -/

@[simp] theorem survives_checkLength (length : Nat) : Survives (checkLength length) := by
  unfold checkLength
  split <;> simp [EvalError.isCrash]

@[simp] theorem survives_checkStringSize (size : Nat) : Survives (checkStringSize size) := by
  unfold checkStringSize
  split <;> simp [EvalError.isCrash]

@[simp] theorem survives_checkFootprint (footprint : Nat) :
    Survives (checkFootprint footprint) := by
  unfold checkFootprint
  split <;> simp [EvalError.isCrash]

namespace Value

@[simp] theorem survives_ofExact (exact : Int) : Survives (ofExact exact) := by
  unfold ofExact
  split <;> simp [EvalError.isCrash]

theorem survives_add (left right : Value) : Survives (left.add right) := by
  unfold add
  split
  · exact survives_ofExact _
  · exact .ok _
  · split
    · exact (survives_checkStringSize _).bind fun _ _ => .ok _
    · exact (survives_checkLength _).bind fun _ _ =>
        (survives_checkFootprint _).bind fun _ _ => .ok _
    · exact .error rfl

theorem survives_items (value : Value) : Survives value.items := by
  unfold items
  split
  · exact .ok _
  · exact (survives_checkLength _).bind fun _ _ => .ok _
  · exact .ok _
  · exact .error rfl

theorem survives_insert (key value : Value) (entries : List (Value × Value)) :
    Survives (insert key value entries) := by
  unfold insert
  split
  · exact .ok _
  · exact .error rfl

/-! ## Order -/

mutual

theorem survives_compare (left right : Value) : Survives (left.compare right) := by
  unfold compare
  split
  · exact .ok _
  · split
    · exact .ok _
    · exact survives_compareItems _ _
    · exact .error rfl

theorem survives_compareItems (lefts rights : List Value) :
    Survives (compareItems lefts rights) := by
  unfold compareItems
  split
  · exact .ok _
  · exact .ok _
  · exact .ok _
  · split
    · exact survives_compareItems _ _
    · exact survives_compare _ _

end

/-! ## Sorting -/

/-- Values are sorted without a crash: by insertion, or because they are ranked totally. -/
def SortsCalmly (values : List Value) : Prop :=
  values.length ≤ Sorting.maxInsertionLength ∨
    (∀ value ∈ values, value.IsExact) ∧ OrdersTotally rank values

theorem SortsCalmly.survives_sort
    {values : List Value}
    (calm : SortsCalmly values) :
    Survives (Value.sort values) := by
  rcases calm with short | ⟨exact, total⟩
  · have byInsertion {precedes : Sorting.Comparison EvalError Value}
        (comparisonSurvives : ∀ left right, Survives (precedes left right)) :
        Survives (Sorting.sort precedes values) := by
      rw [Sorting.sort, if_pos short]
      exact Sorting.fails_sortByInsertion comparisonSurvives values
    refine (byInsertion fun _ _ => .ok _).bind fun _ _ => byInsertion fun left right => ?_
    exact (survives_compare left right).bind fun _ _ => .ok _
  · refine (total.ends_sort exact).fails.mono fun cause fails => ?_
    obtain ⟨left, -, right, -, fails⟩ := fails
    exact survives_compare left right cause fails

end Value

/-! ## Functions -/

theorem survives_requiredArgument
    (function : String)
    (arguments : List Value)
    (position : Nat) :
    Survives (requiredArgument function arguments position) := by
  unfold requiredArgument
  split <;> simp [EvalError.isCrash]

theorem requiredArgument_eq_ok_iff
    {function : String}
    {arguments : List Value}
    {position : Nat}
    {value : Value} :
    requiredArgument function arguments position = .ok value ↔
      arguments[position]? = some value := by
  unfold requiredArgument
  split <;> simp [*]

namespace Builtin

theorem survives_textOf (render : Value → String) (value : Value) :
    Survives (textOf render value) :=
  (survives_checkFootprint _).bind fun _ _ => (survives_checkStringSize _).bind fun _ _ => .ok _

theorem survives_integerOf (value : Value) : Survives (integerOf value) := by
  unfold integerOf
  split
  · unfold integerOfText
    split <;> simp [EvalError.isCrash]
  · split <;> simp [EvalError.isCrash]
  · split <;> simp [EvalError.isCrash]

theorem survives_floatOf (value : Value) : Survives (floatOf value) := by
  unfold floatOf
  split
  · split <;> simp [EvalError.isCrash]
  · exact .ok _
  · split <;> simp [EvalError.isCrash]

theorem survives_dictOf (value : Value) : Survives (dictOf value) := by
  unfold dictOf
  split
  · exact .ok _
  · refine (survives_items _).bind fun pairs _ => ?_
    refine (FailsWith.foldlM (fun pair _ entries => ?_) []).bind fun _ _ => .ok _
    unfold insertPair
    split
    · exact survives_insert _ _ _
    · exact .error rfl

theorem survives_lengthOf (value : Value) : Survives (lengthOf value) := by
  unfold lengthOf
  split <;> simp [EvalError.isCrash]

theorem survives_rangeOf (start stop step : Int) : Survives (rangeOf start stop step) := by
  unfold rangeOf
  split
  · exact .error rfl
  · exact (survives_checkLength _).bind fun _ _ => .ok _

theorem survives_rangeOfBounds (bounds : List Int) : Survives (rangeOfBounds bounds) := by
  unfold rangeOfBounds
  split
  · exact survives_rangeOf _ _ _
  · exact survives_rangeOf _ _ _
  · exact survives_rangeOf _ _ _
  · exact .error rfl

theorem survives_absoluteOf (value : Value) : Survives (absoluteOf value) := by
  unfold absoluteOf
  split
  · exact .ok _
  · split <;> simp [EvalError.isCrash]

theorem survives_choose (function : String) (wanted : Ordering) (values : List Value) :
    Survives (choose function wanted values) := by
  unfold choose
  split
  · exact .error rfl
  · exact .foldlM (fun value _ best => (survives_compare value best).bind fun _ _ => .ok _) _

theorem survives_chooseFrom (function : String) (wanted : Ordering) (arguments : List Value) :
    Survives (chooseFrom function wanted arguments) := by
  unfold chooseFrom
  split
  · exact (survives_items _).bind fun _ _ => survives_choose _ _ _
  · exact survives_choose _ _ _

theorem survives_roundOf (value : Value) (places : Option Value) :
    Survives (roundOf value places) := by
  have whole (number : Float) : Survives (roundWhole number) := by
    unfold roundWhole
    split <;> simp [EvalError.isCrash]
  simp only [roundOf]
  split
  · split
    · exact whole _
    · exact .ok _
  · split
    · exact .error rfl
    · exact .ok _
    · split
      · exact whole _
      · exact .ok _

/-- A call does not crash unless it sorts values that cannot be sorted calmly. -/
theorem survives_call
    (builtin : Builtin)
    {arguments : List Value}
    (calm : builtin = .sorted → ∀ value ∈ arguments.head?, ∀ values,
      value.items = .ok values → SortsCalmly values) :
    Survives (builtin.call arguments) := by
  have needed (position : Nat) := survives_requiredArgument builtin.name arguments position
  have overItems {Result : Type} {rest : List Value → Except EvalError Result}
      (restSurvives : ∀ items, Survives (rest items)) :
      Survives (requiredArgument builtin.name arguments 0 >>= fun value =>
        value.items >>= rest) :=
    (needed 0).bind fun value _ => (survives_items value).bind fun items _ => restSurvives items
  unfold call
  cases builtin with
  | str => exact survives_textOf _ _
  | repr => exact (needed 0).bind fun _ _ => survives_textOf _ _
  | bool => exact .ok _
  | int =>
      simp only
      split
      · exact .ok _
      · exact survives_integerOf _
  | float =>
      simp only
      split
      · exact .ok _
      · exact survives_floatOf _
  | list =>
      simp only
      split
      · exact .ok _
      · exact (survives_items _).bind fun _ _ => .ok _
  | dict =>
      simp only
      split
      · exact .ok _
      · exact survives_dictOf _
  | len => exact (needed 0).bind fun _ _ => survives_lengthOf _
  | range =>
      refine .bind (.mapM (fun value => ?_) arguments) fun _ _ => survives_rangeOfBounds _
      unfold rangeBound
      split <;> simp [EvalError.isCrash]
  | sorted =>
      refine (needed 0).bind fun value isGiven => (survives_items value).bind fun values items => ?_
      rw [requiredArgument_eq_ok_iff, ← List.head?_eq_getElem?] at isGiven
      exact (calm rfl value isGiven values items).survives_sort.bind fun _ _ => .ok _
  | reversed | enumerate | any | all => exact overItems fun _ => .ok _
  | zip => exact .bind (.mapM survives_items arguments) fun _ _ => .ok _
  | abs => exact (needed 0).bind fun _ _ => survives_absoluteOf _
  | min | max => exact survives_chooseFrom _ _ _
  | sum =>
      exact overItems fun _ => .foldlM (fun item _ total => survives_add total item) _
  | round => exact (needed 0).bind fun _ _ => survives_roundOf _ _

end Builtin
end TemplatedMarkup
