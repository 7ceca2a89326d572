import Mathlib

/-!
# Computations that may fail

What a computation has done when it succeeds, which causes it fails with, and computations that
succeed whenever another one does.
-/

namespace TemplatedMarkup

variable {Cause Value Result State Item : Type}

/-- A computation in two steps succeeds only if both steps do. -/
theorem exists_of_bind_eq_ok
    {first : Except Cause Value}
    {next : Value → Except Cause Result}
    {result : Result}
    (succeeds : first >>= next = .ok result) :
    ∃ value, first = .ok value ∧ next value = .ok result := by
  cases first with
  | error cause => contradiction
  | ok value => exact ⟨value, rfl, succeeds⟩

/-- A result behind a check is given exactly when the check passes. -/
theorem bind_check_eq_ok_iff
    {check : Except Cause Unit}
    {result value : Value} :
    (check >>= fun _ => .ok result) = .ok value ↔ check = .ok () ∧ value = result := by
  cases check with
  | error cause => exact iff_of_false nofun fun both => nomatch both.1
  | ok done =>
      constructor
      · intro given
        exact ⟨rfl, (Except.ok.inj given).symm⟩
      · rintro ⟨-, rfl⟩
        rfl

/-- A computation with other causes succeeds when the one with its own causes does. -/
theorem eq_ok_of_mapError_eq_ok
    {OtherCause : Type}
    {change : OtherCause → Cause}
    {outcome : Except OtherCause Value}
    {value : Value}
    (succeeds : outcome.mapError change = .ok value) :
    outcome = .ok value := by
  cases outcome with
  | error cause => contradiction
  | ok found => exact congrArg Except.ok (Except.ok.inj succeeds)

/-- Every value of a traversal is one that the step gives for an item. -/
theorem exists_of_mem_of_mapM_eq_ok
    {step : Item → Except Cause Value}
    {items : List Item}
    {values : List Value}
    {value : Value}
    (mapped : items.mapM step = .ok values)
    (among : value ∈ values) :
    ∃ item ∈ items, step item = .ok value := by
  induction items generalizing values with
  | nil =>
      obtain rfl := Except.ok.inj mapped
      contradiction
  | cons item items inductionHypothesis =>
      rw [List.mapM_cons] at mapped
      obtain ⟨first, stepped, rest⟩ := exists_of_bind_eq_ok mapped
      obtain ⟨others, following, last⟩ := exists_of_bind_eq_ok rest
      obtain rfl := Except.ok.inj last
      rcases List.mem_cons.mp among with rfl | later
      · exact ⟨item, by simp, stepped⟩
      · obtain ⟨other, isItem, otherStepped⟩ := inductionHypothesis following later
        exact ⟨other, by simp [isItem], otherStepped⟩

/-- In a traversal that succeeds, an item may give way to one with the same value. -/
theorem mapM_append_cons_eq_ok
    {step : Item → Except Cause Value}
    {front back : List Item}
    {item other : Item}
    {values : List Value}
    (mapped : (front ++ item :: back).mapM step = .ok values)
    (same : ∀ value, step item = .ok value → step other = .ok value) :
    (front ++ other :: back).mapM step = .ok values := by
  induction front generalizing values with
  | nil =>
      rw [List.nil_append, List.mapM_cons] at mapped ⊢
      obtain ⟨value, stepped, rest⟩ := exists_of_bind_eq_ok mapped
      rw [same value stepped]
      exact rest
  | cons first front inductionHypothesis =>
      rw [List.cons_append, List.mapM_cons] at mapped ⊢
      obtain ⟨value, stepped, rest⟩ := exists_of_bind_eq_ok mapped
      obtain ⟨others, following, last⟩ := exists_of_bind_eq_ok rest
      rw [stepped, inductionHypothesis following]
      exact last

/-- A traversal gives one value for each item. -/
theorem length_of_mapM_eq_ok
    {step : Item → Except Cause Value}
    {items : List Item}
    {values : List Value}
    (mapped : items.mapM step = .ok values) :
    values.length = items.length := by
  induction items generalizing values with
  | nil =>
      obtain rfl := Except.ok.inj mapped
      rfl
  | cons item items inductionHypothesis =>
      rw [List.mapM_cons] at mapped
      obtain ⟨first, -, rest⟩ := exists_of_bind_eq_ok mapped
      obtain ⟨others, following, last⟩ := exists_of_bind_eq_ok rest
      obtain rfl := Except.ok.inj last
      rw [List.length_cons, List.length_cons, inductionHypothesis following]

/-- A check of all items passes when every item passes it. -/
theorem forM_eq_ok_iff
    {check : Item → Except Cause Unit}
    {items : List Item} :
    items.forM check = .ok () ↔ ∀ item ∈ items, check item = .ok () := by
  induction items with
  | nil => simp [pure, Except.pure]
  | cons item items inductionHypothesis =>
      change (check item >>= fun _ => items.forM check) = _ ↔ _
      rw [List.forall_mem_cons, ← inductionHypothesis]
      cases check item with
      | error cause => simp [bind, Except.bind]
      | ok done => simp [bind, Except.bind]

/-- Two traversals with the same steps for all items are the same. -/
theorem mapM_congr
    {step other : Item → Except Cause Value}
    {items : List Item}
    (same : ∀ item ∈ items, step item = other item) :
    items.mapM step = items.mapM other := by
  induction items with
  | nil => rfl
  | cons item items inductionHypothesis =>
      rw [List.forall_mem_cons] at same
      rw [List.mapM_cons, List.mapM_cons, same.1, inductionHypothesis same.2]

/-! ## Causes -/

/-- A computation fails with causes of one kind only. -/
def FailsWith (IsCause : Cause → Prop) (outcome : Except Cause Value) : Prop :=
  ∀ cause, outcome = .error cause → IsCause cause

namespace FailsWith

variable {IsCause : Cause → Prop}

theorem ok (value : Value) : FailsWith IsCause (.ok value) :=
  fun _ fails => nomatch fails

theorem error {cause : Cause} (isCause : IsCause cause) :
    FailsWith IsCause (.error cause : Except Cause Value) := by
  rintro _ ⟨⟩
  exact isCause

@[simp] theorem ok_iff {value : Value} :
    FailsWith IsCause (.ok value : Except Cause Value) ↔ True :=
  iff_true_intro (ok value)

@[simp] theorem error_iff {cause : Cause} :
    FailsWith IsCause (.error cause : Except Cause Value) ↔ IsCause cause :=
  ⟨fun fails => fails cause rfl, error⟩

/-- Two steps fail with the causes of both. -/
theorem bind
    {first : Except Cause Value}
    {next : Value → Except Cause Result}
    (firstFails : FailsWith IsCause first)
    (nextFails : ∀ value, first = .ok value → FailsWith IsCause (next value)) :
    FailsWith IsCause (first >>= next) := by
  cases first with
  | error cause => exact .error (firstFails cause rfl)
  | ok value => exact nextFails value rfl

theorem mapError
    {OtherCause : Type}
    {change : OtherCause → Cause}
    (isCause : ∀ cause, IsCause (change cause))
    (outcome : Except OtherCause Value) :
    FailsWith IsCause (outcome.mapError change) := by
  cases outcome with
  | error cause => exact .error (isCause cause)
  | ok value => exact .ok value

theorem foldlM
    {step : State → Item → Except Cause State}
    {items : List Item}
    (stepFails : ∀ item ∈ items, ∀ state, FailsWith IsCause (step state item))
    (start : State) :
    FailsWith IsCause (items.foldlM step start) := by
  induction items generalizing start with
  | nil => exact .ok start
  | cons item items inductionHypothesis =>
      rw [List.forall_mem_cons] at stepFails
      rw [List.foldlM_cons]
      exact (stepFails.1 start).bind fun next _ => inductionHypothesis stepFails.2 next

theorem mapM
    {step : Item → Except Cause Value}
    (stepFails : ∀ item, FailsWith IsCause (step item))
    (items : List Item) :
    FailsWith IsCause (items.mapM step) := by
  induction items with
  | nil => exact .ok []
  | cons item items inductionHypothesis =>
      rw [List.mapM_cons]
      exact (stepFails item).bind fun _ _ => inductionHypothesis.bind fun _ _ => .ok _

/-- Causes of one kind are of every kind that includes it. -/
theorem mono
    {IsOther : Cause → Prop}
    {outcome : Except Cause Value}
    (includes : ∀ cause, IsCause cause → IsOther cause)
    (fails : FailsWith IsCause outcome) :
    FailsWith IsOther outcome :=
  fun cause isCause => includes cause (fails cause isCause)

end FailsWith

/-! ## Results -/

/-- A computation gives results of one kind only. -/
def Gives (IsResult : Value → Prop) (outcome : Except Cause Value) : Prop :=
  ∀ value, outcome = .ok value → IsResult value

namespace Gives

variable {IsResult : Value → Prop}

theorem ok {value : Value} (isResult : IsResult value) :
    Gives IsResult (.ok value : Except Cause Value) := by
  rintro _ ⟨⟩
  exact isResult

theorem error (cause : Cause) : Gives IsResult (.error cause) :=
  fun _ succeeds => nomatch succeeds

@[simp] theorem ok_iff {value : Value} :
    Gives IsResult (.ok value : Except Cause Value) ↔ IsResult value :=
  ⟨fun gives => gives value rfl, ok⟩

@[simp] theorem pure_iff {value : Value} :
    Gives IsResult (pure value : Except Cause Value) ↔ IsResult value :=
  ok_iff

@[simp] theorem error_iff {cause : Cause} : Gives IsResult (.error cause) ↔ True :=
  iff_true_intro (error cause)

/-- Every computation gives some result. -/
theorem any (outcome : Except Cause Value) : Gives (fun _ => True) outcome :=
  fun _ _ => trivial

/-- Two steps give what the second one gives for a result of the first one. -/
theorem bind
    {IsLast : Result → Prop}
    {first : Except Cause Value}
    {next : Value → Except Cause Result}
    (firstGives : Gives IsResult first)
    (nextGives : ∀ value, IsResult value → Gives IsLast (next value)) :
    Gives IsLast (first >>= next) := by
  intro result succeeds
  obtain ⟨value, isValue, isLast⟩ := exists_of_bind_eq_ok succeeds
  exact nextGives value (firstGives value isValue) result isLast

theorem mapM
    {step : Item → Except Cause Value}
    {items : List Item}
    (stepGives : ∀ item ∈ items, Gives IsResult (step item)) :
    Gives (∀ value ∈ ·, IsResult value) (items.mapM step) := by
  intro values mapped value among
  obtain ⟨item, isItem, stepped⟩ := exists_of_mem_of_mapM_eq_ok mapped among
  exact stepGives item isItem value stepped

/-- What every step of a fold keeps holds at its end. -/
theorem foldlM
    {step : State → Item → Except Cause State}
    {Holds : State → Prop}
    {items : List Item}
    (keeps : ∀ item ∈ items, ∀ state, Holds state → Gives Holds (step state item))
    {start : State}
    (holds : Holds start) :
    Gives Holds (items.foldlM step start) := by
  induction items generalizing start with
  | nil => exact .ok holds
  | cons item items inductionHypothesis =>
      rw [List.forall_mem_cons] at keeps
      rw [List.foldlM_cons]
      exact (keeps.1 start holds).bind fun next stillHolds => inductionHypothesis keeps.2 stillHolds

/-- What every step of a fold lengthens by its item holds of all items at the end. -/
theorem foldlM_append
    {step : State → Item → Except Cause State}
    {Holds : List Item → State → Prop}
    (lengthens : ∀ done item state, Holds done state →
      Gives (Holds (done ++ [item])) (step state item))
    {done : List Item}
    {start : State}
    (holds : Holds done start)
    (items : List Item) :
    Gives (Holds (done ++ items)) (items.foldlM step start) := by
  induction items generalizing done start with
  | nil => exact .ok (by rwa [List.append_nil])
  | cons item items inductionHypothesis =>
      rw [List.foldlM_cons, List.append_cons]
      refine (lengthens done item start holds).bind fun _ stillHolds => ?_
      exact inductionHypothesis stillHolds

/-- Results of one kind are of every kind that includes it. -/
theorem mono
    {IsOther : Value → Prop}
    {outcome : Except Cause Value}
    (gives : Gives IsResult outcome)
    (includes : ∀ value, IsResult value → IsOther value) :
    Gives IsOther outcome :=
  fun value succeeds => includes value (gives value succeeds)

end Gives

/-! ## Causes and results -/

/-- A computation fails with causes of one kind only, and gives results of one kind only. -/
structure Ends
    (IsCause : Cause → Prop)
    (IsResult : Value → Prop)
    (outcome : Except Cause Value) : Prop where
  /-- The causes. -/
  fails : FailsWith IsCause outcome
  /-- The results. -/
  gives : Gives IsResult outcome

namespace Ends

variable
  {IsCause : Cause → Prop}
  {IsResult : Value → Prop}

theorem ok {value : Value} (isResult : IsResult value) :
    Ends IsCause IsResult (.ok value) :=
  ⟨.ok value, .ok isResult⟩

/-- Two steps end as the second one does for a result of the first one. -/
theorem bind
    {IsLast : Result → Prop}
    {first : Except Cause Value}
    {next : Value → Except Cause Result}
    (firstEnds : Ends IsCause IsResult first)
    (nextEnds : ∀ value, IsResult value → Ends IsCause IsLast (next value)) :
    Ends IsCause IsLast (first >>= next) :=
  ⟨firstEnds.fails.bind fun value succeeds =>
      (nextEnds value (firstEnds.gives value succeeds)).fails,
    firstEnds.gives.bind fun value isValue => (nextEnds value isValue).gives⟩

/-- Results of one kind are of every kind that includes it. -/
theorem mono
    {IsOther : Value → Prop}
    {outcome : Except Cause Value}
    (ends : Ends IsCause IsResult outcome)
    (includes : ∀ value, IsResult value → IsOther value) :
    Ends IsCause IsOther outcome :=
  ⟨ends.fails, ends.gives.mono includes⟩

/-- What the results are known to be otherwise holds of them as well. -/
theorem and
    {IsOther : Value → Prop}
    {outcome : Except Cause Value}
    (ends : Ends IsCause IsResult outcome)
    (gives : Gives IsOther outcome) :
    Ends IsCause (fun value => IsOther value ∧ IsResult value) outcome :=
  ⟨ends.fails, fun value succeeds => ⟨gives value succeeds, ends.gives value succeeds⟩⟩

end Ends

/-! ## Computations that succeed together -/

/-- Another computation gives every value that a computation gives. -/
def Refines (outcome other : Except Cause Value) : Prop :=
  ∀ value, outcome = .ok value → other = .ok value

namespace Refines

theorem refl (outcome : Except Cause Value) : Refines outcome outcome :=
  fun _ succeeds => succeeds

theorem error (cause : Cause) (other : Except Cause Value) : Refines (.error cause) other :=
  fun _ succeeds => nomatch succeeds

theorem bind
    {first other : Except Cause Value}
    {next otherNext : Value → Except Cause Result}
    (refines : Refines first other)
    (nextRefines : ∀ value, first = .ok value → Refines (next value) (otherNext value)) :
    Refines (first >>= next) (other >>= otherNext) := by
  intro result succeeds
  obtain ⟨value, isValue, isResult⟩ := exists_of_bind_eq_ok succeeds
  rw [refines value isValue]
  exact nextRefines value isValue result isResult

theorem mapM
    {step otherStep : Item → Except Cause Value}
    (refines : ∀ item, Refines (step item) (otherStep item))
    (items : List Item) :
    Refines (items.mapM step) (items.mapM otherStep) := by
  induction items with
  | nil => exact .refl _
  | cons item items inductionHypothesis =>
      rw [List.mapM_cons, List.mapM_cons]
      exact (refines item).bind fun _ _ => inductionHypothesis.bind fun _ _ => .refl _

end Refines

/-- Two options in relation both hold something, or neither does. -/
theorem cases_of_optionRel
    {Other : Type}
    {Related : Value → Other → Prop}
    {option : Option Value}
    {other : Option Other}
    (related : Option.Rel Related option other) :
    (∃ value otherValue, option = some value ∧ other = some otherValue ∧
      Related value otherValue) ∨ (option = none ∧ other = none) := by
  cases related with
  | some relatedValues => exact .inl ⟨_, _, rfl, rfl, relatedValues⟩
  | none => exact .inr ⟨rfl, rfl⟩

end TemplatedMarkup
