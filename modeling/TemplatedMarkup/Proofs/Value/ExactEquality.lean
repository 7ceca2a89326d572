import TemplatedMarkup.Proofs.Value.WellFormed

/-!
# Equality of exact values

Exact values hold no doubles and no functions, and the keys of a dict in them differ from each
other.  Equality is an equivalence on them, whatever the keys are: keys that differ from each other
on the left are found at different keys on the right.
-/

namespace TemplatedMarkup
namespace Value

/-- Values without doubles and functions, all of whose dicts have keys that differ. -/
inductive IsExact : Value → Prop where
  | none : IsExact .none
  | bool (value : Bool) : IsExact (.bool value)
  | int (value : Int64) : IsExact (.int value)
  | str (text : String) : IsExact (.str text)
  | list
      {items : List Value}
      (each : ∀ item ∈ items, IsExact item) :
      IsExact (.list items)
  | dict
      {entries : List (Value × Value)}
      (distinct : entries.Pairwise fun entry later => entry.1.equal later.1 = false)
      (keys : ∀ entry ∈ entries, IsExact entry.1)
      (values : ∀ entry ∈ entries, IsExact entry.2) :
      IsExact (.dict entries)

/-- Induction over the items of lists in lists; dicts are not entered. -/
theorem IsExact.inductionOnItems
    {motive : ∀ value : Value, value.IsExact → Prop}
    (step : ∀ value (exact : value.IsExact),
      (∀ items, value = .list items → ∀ item ∈ items, ∀ exact, motive item exact) →
        motive value exact)
    {value : Value}
    (exact : value.IsExact) :
    motive value exact := by
  induction exact with
  | none | bool | int | str | dict => exact step _ _ fun _ isList => nomatch isList
  | list items each =>
      refine step _ _ fun others isList item isItem _ => ?_
      obtain rfl := Value.list.inj isList
      exact each item isItem

/-- Equality is an equivalence among some values. -/
structure EquatesAmong (Among : Value → Prop) : Prop where
  /-- A value equals itself. -/
  self : ∀ {value}, Among value → value.equal value = true
  /-- Equality goes both ways. -/
  symm : ∀ {left right}, Among left → Among right →
    left.equal right = true → right.equal left = true
  /-- Equality is handed on. -/
  trans : ∀ {left middle right}, Among left → Among middle → Among right →
    left.equal middle = true → middle.equal right = true → left.equal right = true

/-! ## Lists -/

/-- Equal lists are as long as each other and have equal items at each position. -/
theorem equal_list_iff
    {lefts rights : List Value} :
    equal (.list lefts) (.list rights) = true ↔
      lefts.length = rights.length ∧ ∀ position isLeft isRight,
        (lefts.get ⟨position, isLeft⟩).equal (rights.get ⟨position, isRight⟩) = true := by
  have pointwise : equal (.list lefts) (.list rights) = true ↔
      List.Forall₂ (fun left right => left.equal right = true) lefts rights := by
    rw [equal]
    simp only [number?]
    induction lefts generalizing rights with
    | nil => cases rights <;> simp [equalItems]
    | cons item lefts inductionHypothesis =>
        cases rights <;> simp [equalItems, inductionHypothesis]
  exact pointwise.trans List.forall₂_iff_get

/-! ## Dicts -/

/--
Items that are related to others, no two of them to the same one, are related to all others when
there are as many.
-/
theorem exists_of_forall_exists
    {Item Other : Type}
    {Related : Item → Other → Prop}
    {items : List Item}
    {others : List Other}
    (sameLength : items.length = others.length)
    (found : ∀ item ∈ items, ∃ other ∈ others, Related item other)
    (apart : items.Pairwise fun item later => ∀ other ∈ others,
      Related item other → ¬Related later other) :
    ∀ other ∈ others, ∃ item ∈ items, Related item other := by
  induction items generalizing others with
  | nil =>
      obtain rfl := List.length_eq_zero_iff.mp sameLength.symm
      simp
  | cons item items inductionHypothesis =>
      obtain ⟨image, isImage, related⟩ := found item (by simp)
      obtain ⟨before, after, rfl⟩ := List.append_of_mem isImage
      rw [List.pairwise_cons] at apart
      have onto : ∀ other ∈ before ++ after, ∃ item ∈ items, Related item other :=
        inductionHypothesis (by simpa [← Nat.add_assoc] using sameLength)
          (fun later isLater => by
            obtain ⟨other, isOther, relatedLater⟩ := found later (List.mem_cons_of_mem _ isLater)
            refine ⟨other, ?_, relatedLater⟩
            have differs : other ≠ image := by
              rintro rfl
              exact apart.1 later isLater other isOther related relatedLater
            simpa [differs] using isOther)
          (apart.2.imp fun differ other isOther => differ other (by
            rw [List.mem_append] at isOther
            rw [List.mem_append, List.mem_cons]
            exact isOther.imp_right .inr))
      intro other isOther
      by_cases same : other = image
      · exact ⟨item, by simp, same ▸ related⟩
      · obtain ⟨later, isLater, relatedLater⟩ := onto other (by simpa [same] using isOther)
        exact ⟨later, List.mem_cons_of_mem _ isLater, relatedLater⟩

/-- A list of entries whose keys differ, with keys and values among some values. -/
structure EntriesAmong
    (Among : Value → Prop)
    (entries : List (Value × Value)) : Prop where
  /-- No key equals a later one. -/
  distinct : entries.Pairwise fun entry later => entry.1.equal later.1 = false
  /-- The keys are among the values. -/
  keys : ∀ entry ∈ entries, Among entry.1
  /-- The values of the entries are among the values. -/
  values : ∀ entry ∈ entries, Among entry.2

/-- An entry of a dict answers one of another dict: the keys are equal, and so are the values. -/
def Answers (entry other : Value × Value) : Prop :=
  other.1.equal entry.1 = true ∧ entry.2.equal other.2 = true

section Dicts

variable
  {Among : Value → Prop}
  (laws : EquatesAmong Among)
  {left right : List (Value × Value)}

include laws

/-- A dict has an entry when one of its entries answers it. -/
theorem EquatesAmong.hasEntry_iff
    {entry : Value × Value}
    (isKey : Among entry.1)
    (entries : EntriesAmong Among right) :
    hasEntry entry.1 entry.2 right = true ↔ ∃ other ∈ right, Answers entry other := by
  obtain ⟨distinct, keys, -⟩ := entries
  induction right with
  | nil => simp [hasEntry]
  | cons first right inductionHypothesis =>
      rw [List.pairwise_cons] at distinct
      rw [List.forall_mem_cons] at keys
      rw [hasEntry, List.exists_mem_cons_iff]
      by_cases same : first.1.equal entry.1 = true
      · have noOther : ¬∃ other ∈ right, Answers entry other := by
          rintro ⟨other, isOther, sameOther, -⟩
          have equalKeys := laws.trans keys.1 isKey (keys.2 other isOther) same
            (laws.symm (keys.2 other isOther) isKey sameOther)
          rw [distinct.1 other isOther] at equalKeys
          contradiction
        rw [if_pos same, or_iff_left noOther, Answers, and_iff_right same]
      · have notFirst : ¬Answers entry first := fun answers => same answers.1
        rw [if_neg same, or_iff_right notFirst]
        exact inductionHypothesis distinct.2 keys.2

/-- Equal dicts are as long as each other, and each entry of the left one is answered. -/
theorem EquatesAmong.equal_dict_iff
    (lefts : EntriesAmong Among left)
    (rights : EntriesAmong Among right) :
    equal (.dict left) (.dict right) = true ↔
      left.length = right.length ∧ ∀ entry ∈ left, ∃ other ∈ right, Answers entry other := by
  have hasAll : ∀ others : List (Value × Value),
      hasEntries right others = true ↔
        ∀ entry ∈ others, hasEntry entry.1 entry.2 right = true := by
    intro others
    induction others with
    | nil => simp [hasEntries]
    | cons entry others inductionHypothesis =>
        rw [hasEntries, Bool.and_eq_true, inductionHypothesis, List.forall_mem_cons]
  rw [equal]
  simp only [number?, Bool.and_eq_true, beq_iff_eq, hasAll]
  exact and_congr_right fun _ =>
    forall₂_congr fun entry isEntry => laws.hasEntry_iff (lefts.keys entry isEntry) rights

/-- Different entries of a dict are answered by different ones. -/
theorem EquatesAmong.pairwise_answers
    (lefts : EntriesAmong Among left)
    (rights : EntriesAmong Among right) :
    left.Pairwise fun entry later => ∀ other ∈ right,
      Answers entry other → ¬Answers later other := by
  refine lefts.distinct.imp_of_mem fun {entry later} isEntry isLater differ other isOther => ?_
  rintro ⟨same, -⟩ ⟨sameLater, -⟩
  have isKey := rights.keys other isOther
  have equalKeys := laws.trans (lefts.keys entry isEntry) isKey (lefts.keys later isLater)
    (laws.symm isKey (lefts.keys entry isEntry) same) sameLater
  rw [differ] at equalKeys
  contradiction

/-- Equality of dicts goes both ways, although it only asks for the keys on the left. -/
theorem EquatesAmong.equal_dict_symm
    (lefts : EntriesAmong Among left)
    (rights : EntriesAmong Among right)
    (same : equal (.dict left) (.dict right) = true) :
    equal (.dict right) (.dict left) = true := by
  obtain ⟨sameLength, answered⟩ := (laws.equal_dict_iff lefts rights).mp same
  refine (laws.equal_dict_iff rights lefts).mpr ⟨sameLength.symm, fun other isOther => ?_⟩
  obtain ⟨entry, isEntry, sameKey, sameValue⟩ := exists_of_forall_exists sameLength answered
    (laws.pairwise_answers lefts rights) other isOther
  exact ⟨entry, isEntry, laws.symm (rights.keys other isOther) (lefts.keys entry isEntry) sameKey,
    laws.symm (lefts.values entry isEntry) (rights.values other isOther) sameValue⟩

/-- Equality of dicts is handed on. -/
theorem EquatesAmong.equal_dict_trans
    {middle : List (Value × Value)}
    (lefts : EntriesAmong Among left)
    (middles : EntriesAmong Among middle)
    (rights : EntriesAmong Among right)
    (first : equal (.dict left) (.dict middle) = true)
    (second : equal (.dict middle) (.dict right) = true) :
    equal (.dict left) (.dict right) = true := by
  obtain ⟨firstLength, answered⟩ := (laws.equal_dict_iff lefts middles).mp first
  obtain ⟨secondLength, answeredNext⟩ := (laws.equal_dict_iff middles rights).mp second
  refine (laws.equal_dict_iff lefts rights).mpr
    ⟨firstLength.trans secondLength, fun entry isEntry => ?_⟩
  obtain ⟨between, isBetween, sameKey, sameValue⟩ := answered entry isEntry
  obtain ⟨other, isOther, nextKey, nextValue⟩ := answeredNext between isBetween
  exact ⟨other, isOther,
    laws.trans (rights.keys other isOther) (middles.keys between isBetween)
      (lefts.keys entry isEntry) nextKey sameKey,
    laws.trans (lefts.values entry isEntry) (middles.values between isBetween)
      (rights.values other isOther) sameValue nextValue⟩

end Dicts

/-! ## All exact values -/

/-- Exact values below a size. -/
def IsExactBelow (bound : Nat) (value : Value) : Prop :=
  value.IsExact ∧ sizeOf value < bound

/-- The items of an exact list are smaller exact values. -/
theorem IsExactBelow.items
    {bound : Nat}
    {items : List Value}
    (below : IsExactBelow (bound + 1) (.list items)) :
    ∀ item ∈ items, IsExactBelow bound item := by
  obtain ⟨exact, size⟩ := below
  cases exact with
  | list each =>
      intro item isItem
      refine ⟨each item isItem, ?_⟩
      have smaller := List.sizeOf_lt_of_mem isItem
      simp only [list.sizeOf_spec] at size
      omega

/-- The entries of an exact dict are made of smaller exact values. -/
theorem IsExactBelow.entries
    {bound : Nat}
    {entries : List (Value × Value)}
    (below : IsExactBelow (bound + 1) (.dict entries)) :
    EntriesAmong (IsExactBelow bound) entries := by
  obtain ⟨exact, size⟩ := below
  simp only [dict.sizeOf_spec] at size
  cases exact with
  | dict distinct keys values =>
      refine ⟨distinct, fun entry isEntry => ⟨keys entry isEntry, ?_⟩,
        fun entry isEntry => ⟨values entry isEntry, ?_⟩⟩
      all_goals
        have smaller := sizeOf_entry_lt isEntry
        omega

section Step

variable
  {bound : Nat}
  (laws : EquatesAmong (IsExactBelow bound))
  {left middle right : Value}

include laws

theorem equal_self_of_below
    (below : IsExactBelow (bound + 1) left) :
    left.equal left = true := by
  have whole := below
  cases below.1 with
  | none | bool | int | str => simp [equal, number?, Number.equal]
  | list each =>
      exact equal_list_iff.mpr
        ⟨rfl, fun _ _ _ => laws.self (whole.items _ (List.get_mem _ _))⟩
  | dict distinct keys values =>
      have entries := whole.entries
      exact (laws.equal_dict_iff entries entries).mpr ⟨rfl, fun entry isEntry =>
        ⟨entry, isEntry, laws.self (entries.keys entry isEntry),
          laws.self (entries.values entry isEntry)⟩⟩

theorem equal_symm_of_below
    (leftBelow : IsExactBelow (bound + 1) left)
    (rightBelow : IsExactBelow (bound + 1) right)
    (same : left.equal right = true) :
    right.equal left = true := by
  have leftWhole := leftBelow
  have rightWhole := rightBelow
  cases leftBelow.1 with
  | none | bool | int | str =>
      cases rightBelow.1 <;> simp_all [equal, number?, Number.equal]
  | list =>
      cases rightBelow.1 with
      | none | bool | int | str | dict => simp [equal, number?] at same
      | list =>
          obtain ⟨sameLength, equalAt⟩ := equal_list_iff.mp same
          exact equal_list_iff.mpr ⟨sameLength.symm, fun position isRight isLeft =>
            laws.symm (leftWhole.items _ (List.get_mem _ _))
              (rightWhole.items _ (List.get_mem _ _)) (equalAt position isLeft isRight)⟩
  | dict =>
      cases rightBelow.1 with
      | none | bool | int | str | list => simp [equal, number?] at same
      | dict => exact laws.equal_dict_symm leftWhole.entries rightWhole.entries same

theorem equal_trans_of_below
    (leftBelow : IsExactBelow (bound + 1) left)
    (middleBelow : IsExactBelow (bound + 1) middle)
    (rightBelow : IsExactBelow (bound + 1) right)
    (first : left.equal middle = true)
    (second : middle.equal right = true) :
    left.equal right = true := by
  have leftWhole := leftBelow
  have middleWhole := middleBelow
  have rightWhole := rightBelow
  cases leftBelow.1 with
  | none | bool | int | str =>
      cases middleBelow.1 <;> cases rightBelow.1 <;> simp_all [equal, number?, Number.equal]
  | list =>
      cases middleBelow.1 with
      | none | bool | int | str | dict => simp [equal, number?] at first
      | list =>
          cases rightBelow.1 with
          | none | bool | int | str | dict => simp [equal, number?] at second
          | list =>
              obtain ⟨firstLength, firstEqual⟩ := equal_list_iff.mp first
              obtain ⟨secondLength, secondEqual⟩ := equal_list_iff.mp second
              refine equal_list_iff.mpr
                ⟨firstLength.trans secondLength, fun position isLeft isRight => ?_⟩
              have isMiddle : position < List.length _ := firstLength ▸ isLeft
              exact laws.trans (leftWhole.items _ (List.get_mem _ _))
                (middleWhole.items _ (List.get_mem _ _)) (rightWhole.items _ (List.get_mem _ _))
                (firstEqual position isLeft isMiddle) (secondEqual position isMiddle isRight)
  | dict =>
      cases middleBelow.1 with
      | none | bool | int | str | list => simp [equal, number?] at first
      | dict =>
          cases rightBelow.1 with
          | none | bool | int | str | list => simp [equal, number?] at second
          | dict =>
              exact laws.equal_dict_trans leftWhole.entries middleWhole.entries
                rightWhole.entries first second

end Step

/-- Equality is an equivalence on exact values below a size, by induction on that size. -/
theorem equatesAmong_below (bound : Nat) : EquatesAmong (IsExactBelow bound) := by
  induction bound with
  | zero =>
      exact ⟨fun below => absurd below.2 (by omega), fun below => absurd below.2 (by omega),
        fun below => absurd below.2 (by omega)⟩
  | succ bound laws =>
      exact ⟨equal_self_of_below laws, equal_symm_of_below laws, equal_trans_of_below laws⟩

/-- Equality is an equivalence on exact values. -/
theorem equatesAmong_exact : EquatesAmong IsExact where
  self exact := (equatesAmong_below _).self ⟨exact, Nat.lt_succ_self _⟩
  symm {left right} leftExact rightExact :=
    (equatesAmong_below (sizeOf left + sizeOf right + 1)).symm
      ⟨leftExact, by omega⟩ ⟨rightExact, by omega⟩
  trans {left middle right} leftExact middleExact rightExact :=
    (equatesAmong_below (sizeOf left + sizeOf middle + sizeOf right + 1)).trans
      ⟨leftExact, by omega⟩ ⟨middleExact, by omega⟩ ⟨rightExact, by omega⟩

end Value
end TemplatedMarkup
