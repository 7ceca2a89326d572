import TemplatedMarkup.Proofs.Value.ExactEquality

/-!
# Equality is an equivalence

Discrete values are exact values whose keys are hashable.  Equality is an equivalence on them as it
is on exact values, and the order of the entries of a dict does not matter for it: keys that are
compared as different constants differ in every order.
-/

namespace TemplatedMarkup
namespace Value

open Expression

/-- Values without doubles and functions, all of whose dicts have distinct keys. -/
inductive IsDiscrete : Value → Prop where
  | none : IsDiscrete .none
  | bool (value : Bool) : IsDiscrete (.bool value)
  | int (value : Int64) : IsDiscrete (.int value)
  | str (text : String) : IsDiscrete (.str text)
  | list
      {items : List Value}
      (each : ∀ item ∈ items, IsDiscrete item) :
      IsDiscrete (.list items)
  | dict
      {entries : List (Value × Value)}
      (distinct : HasDistinctKeys entries)
      (keys : ∀ entry ∈ entries, IsDiscrete entry.1)
      (values : ∀ entry ∈ entries, IsDiscrete entry.2) :
      IsDiscrete (.dict entries)

/-- Discrete values are exact. -/
theorem IsDiscrete.isExact
    {value : Value}
    (discrete : value.IsDiscrete) :
    value.IsExact := by
  induction discrete with
  | none => exact .none
  | bool value => exact .bool value
  | int value => exact .int value
  | str text => exact .str text
  | list _ each => exact .list each
  | dict distinct _ _ keys values => exact .dict distinct.distinct keys values

/-! ## Keys -/

/-- The constant that a key is compared as; a truth value counts as an integer. -/
def keyForm : Value → Literal
  | .bool value => .int (if value then 1 else 0)
  | .int value => .int value
  | .str text => .str text
  | _ => .none

/-- Keys are equal when they are compared as the same constant. -/
theorem equal_eq_decide_keyForm
    {left right : Value}
    (leftDiscrete : left.IsDiscrete)
    (rightDiscrete : right.IsDiscrete)
    (leftHashable : left.isHashable = true)
    (rightHashable : right.isHashable = true) :
    left.equal right = decide (left.keyForm = right.keyForm) := by
  cases leftDiscrete with
  | list | dict => contradiction
  | none | bool | int | str =>
      cases rightDiscrete with
      | list | dict => contradiction
      | none | bool | int | str => simp [equal, number?, Number.equal, keyForm, beq_eq_decide]

section Dicts

variable {left right : List (Value × Value)}

/-- The keys of a dict are compared as different constants. -/
theorem IsDiscrete.nodup_keyForms
    (discrete : IsDiscrete (.dict left)) :
    (left.map (·.1.keyForm)).Nodup := by
  obtain _ | _ | _ | _ | _ | ⟨distinct, keys, -⟩ := discrete
  rw [List.Nodup, List.pairwise_map]
  refine distinct.distinct.imp_of_mem fun {entry later} isEntry isLater differs => ?_
  rw [equal_eq_decide_keyForm (keys entry isEntry) (keys later isLater)
    (distinct.hashable entry isEntry) (distinct.hashable later isLater)] at differs
  exact of_decide_eq_false differs

/-- The order of the entries of a dict does not matter for being discrete. -/
theorem IsDiscrete.of_perm
    (discrete : IsDiscrete (.dict left))
    (reordered : left.Perm right) :
    IsDiscrete (.dict right) := by
  have nodup := (reordered.map (·.1.keyForm)).nodup_iff.mp discrete.nodup_keyForms
  obtain _ | _ | _ | _ | _ | ⟨distinct, keys, values⟩ := discrete
  have isKey : ∀ entry ∈ right, entry.1.IsDiscrete ∧ entry.1.isHashable = true :=
    fun entry among =>
      ⟨keys entry (reordered.mem_iff.mpr among),
        distinct.hashable entry (reordered.mem_iff.mpr among)⟩
  refine .dict ⟨fun entry among => (isKey entry among).2, ?_⟩
    (fun entry among => (isKey entry among).1)
    fun entry among => values entry (reordered.mem_iff.mpr among)
  rw [List.Nodup, List.pairwise_map] at nodup
  refine nodup.imp_of_mem fun {entry later} isEntry isLater differs => ?_
  obtain ⟨entryDiscrete, entryHashable⟩ := isKey entry isEntry
  obtain ⟨laterDiscrete, laterHashable⟩ := isKey later isLater
  rw [equal_eq_decide_keyForm entryDiscrete laterDiscrete entryHashable laterHashable]
  exact decide_eq_false differs

end Dicts

/-! ## The laws of an equivalence -/

section Laws

variable {left middle right : Value}

/-- A value equals itself. -/
theorem IsDiscrete.equal_self
    (discrete : left.IsDiscrete) :
    left.equal left = true :=
  equatesAmong_exact.self discrete.isExact

/-- Equality is symmetric, although a dict is only asked for the keys on the left. -/
theorem IsDiscrete.equal_symm
    (leftDiscrete : left.IsDiscrete)
    (rightDiscrete : right.IsDiscrete)
    (same : left.equal right = true) :
    right.equal left = true :=
  equatesAmong_exact.symm leftDiscrete.isExact rightDiscrete.isExact same

/-- Equality is transitive. -/
theorem IsDiscrete.equal_trans
    (leftDiscrete : left.IsDiscrete)
    (middleDiscrete : middle.IsDiscrete)
    (rightDiscrete : right.IsDiscrete)
    (first : left.equal middle = true)
    (second : middle.equal right = true) :
    left.equal right = true :=
  equatesAmong_exact.trans leftDiscrete.isExact middleDiscrete.isExact rightDiscrete.isExact
    first second

/-- The entries of a discrete dict are exact, and their keys differ. -/
theorem IsDiscrete.entries
    {entries : List (Value × Value)}
    (discrete : IsDiscrete (.dict entries)) :
    EntriesAmong IsExact entries := by
  obtain _ | _ | _ | _ | _ | ⟨distinct, keys, values⟩ := discrete
  exact ⟨distinct.distinct, fun entry among => (keys entry among).isExact,
    fun entry among => (values entry among).isExact⟩

/-- A dict equals itself with its entries in another order. -/
theorem IsDiscrete.equal_of_perm
    {entries others : List (Value × Value)}
    (discrete : IsDiscrete (.dict entries))
    (reordered : entries.Perm others) :
    equal (.dict entries) (.dict others) = true := by
  refine (equatesAmong_exact.equal_dict_iff discrete.entries
    (discrete.of_perm reordered).entries).mpr ⟨reordered.length_eq, fun entry among => ?_⟩
  exact ⟨entry, reordered.mem_iff.mp among,
    equatesAmong_exact.self (discrete.entries.keys entry among),
    equatesAmong_exact.self (discrete.entries.values entry among)⟩

/-- Equal values are equal to the same values. -/
theorem IsDiscrete.equal_congr
    {otherLeft otherRight : Value}
    (leftDiscrete : left.IsDiscrete)
    (otherLeftDiscrete : otherLeft.IsDiscrete)
    (rightDiscrete : right.IsDiscrete)
    (otherRightDiscrete : otherRight.IsDiscrete)
    (sameLeft : left.equal otherLeft = true)
    (sameRight : right.equal otherRight = true) :
    left.equal right = otherLeft.equal otherRight := by
  have sameLeftBack := leftDiscrete.equal_symm otherLeftDiscrete sameLeft
  have sameRightBack := rightDiscrete.equal_symm otherRightDiscrete sameRight
  refine Bool.eq_iff_iff.mpr ⟨fun same => ?_, fun same => ?_⟩
  · have across := otherLeftDiscrete.equal_trans leftDiscrete rightDiscrete sameLeftBack same
    exact otherLeftDiscrete.equal_trans rightDiscrete otherRightDiscrete across sameRight
  · have across := leftDiscrete.equal_trans otherLeftDiscrete otherRightDiscrete sameLeft same
    exact leftDiscrete.equal_trans otherRightDiscrete rightDiscrete across sameRightBack

end Laws

/--
Equality is an equivalence on values without doubles and functions whose dicts have distinct keys,
at any nesting, and it does not depend on the order of the entries of a dict on either side.
-/
theorem equivalence_equal :
    Equivalence (fun left right : {value : Value // value.IsDiscrete} =>
        left.1.equal right.1 = true) ∧
      ∀ {lefts otherLefts rights otherRights : List (Value × Value)},
        IsDiscrete (.dict lefts) → IsDiscrete (.dict rights) →
        lefts.Perm otherLefts → rights.Perm otherRights →
          equal (.dict lefts) (.dict rights) = equal (.dict otherLefts) (.dict otherRights) := by
  refine ⟨⟨fun value => value.2.equal_self, fun {left right} same => ?_,
    fun {left middle right} first second => ?_⟩, ?_⟩
  · exact left.2.equal_symm right.2 same
  · exact left.2.equal_trans middle.2 right.2 first second
  · intro lefts otherLefts rights otherRights leftDiscrete rightDiscrete leftPerm rightPerm
    exact leftDiscrete.equal_congr (leftDiscrete.of_perm leftPerm) rightDiscrete
      (rightDiscrete.of_perm rightPerm) (leftDiscrete.equal_of_perm leftPerm)
      (rightDiscrete.equal_of_perm rightPerm)

/-- Dicts with the keys `1` and `True`, each in both orders. -/
theorem equivalence_equal_reordered :
    let lefts : List (Value × Value) := [(.int 1, .list [.none]), (.str "a", .bool false)]
    let rights : List (Value × Value) := [(.str "a", .int 0), (.bool true, .list [.none])]
    equal (.dict lefts) (.dict rights) = true ∧
      equal (.dict rights) (.dict lefts) = true ∧
      equal (.dict lefts.reverse) (.dict rights) = true := by
  intro lefts rights
  have leftDiscrete : IsDiscrete (.dict lefts) := by
    refine .dict ⟨by simp [lefts, isHashable], by simp [lefts, equal, number?]⟩ ?_ ?_
    · simpa [lefts] using ⟨.int 1, .str "a"⟩
    · simpa [lefts] using ⟨.list (by simpa using .none), .bool false⟩
  have rightDiscrete : IsDiscrete (.dict rights) := by
    refine .dict ⟨by simp [rights, isHashable], by simp [rights, equal, number?]⟩ ?_ ?_
    · simpa [rights] using ⟨.str "a", .bool true⟩
    · simpa [rights] using ⟨.int 0, .list (by simpa using .none)⟩
  have same : equal (.dict lefts) (.dict rights) = true := by
    simp [lefts, rights, equal, number?, Number.equal, hasEntries, hasEntry, equalItems]
  have reordered : equal (.dict lefts) (.dict rights) =
      equal (.dict lefts.reverse) (.dict rights) :=
    equivalence_equal.2 leftDiscrete rightDiscrete lefts.reverse_perm.symm (.refl _)
  have back : equal (.dict rights) (.dict lefts) = true :=
    @(equivalence_equal.1).symm ⟨_, leftDiscrete⟩ ⟨_, rightDiscrete⟩ same
  exact ⟨same, back, reordered ▸ same⟩

end Value
end TemplatedMarkup
