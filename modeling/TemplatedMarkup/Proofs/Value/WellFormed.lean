import TemplatedMarkup.Proofs.Value.Invariant

/-!
# Well-formed values

A dict is meant to have hashable keys, none of which equals a later one; then a lookup finds the
only value at a key.  That every dict inside a value is like this is an invariant of evaluation.
-/

namespace TemplatedMarkup
namespace Value

/-- The keys of a dict are hashable, and none of them equals a later one. -/
structure HasDistinctKeys (entries : List (Value × Value)) : Prop where
  /-- Every key is hashable. -/
  hashable : ∀ entry ∈ entries, entry.1.isHashable = true
  /-- No key equals a later one. -/
  distinct : entries.Pairwise fun entry later => entry.1.equal later.1 = false

/-- Every dict inside a value has distinct keys, also in the defaults of functions. -/
inductive WellFormed : Value → Prop where
  | none : WellFormed .none
  | bool (value : Bool) : WellFormed (.bool value)
  | int (value : Int64) : WellFormed (.int value)
  | float (value : Float) : WellFormed (.float value)
  | str (text : String) : WellFormed (.str text)
  | list
      {items : List Value}
      (each : ∀ item ∈ items, WellFormed item) :
      WellFormed (.list items)
  | dict
      {entries : List (Value × Value)}
      (keys : HasDistinctKeys entries)
      (values : ∀ entry ∈ entries, WellFormed entry.2) :
      WellFormed (.dict entries)
  | function
      {closure : Function}
      (defaults : ∀ parameter ∈ closure.parameters, ∀ default ∈ parameter.default,
        WellFormed default) :
      WellFormed (.function closure)

attribute [simp] WellFormed.none WellFormed.bool WellFormed.int WellFormed.float WellFormed.str

@[simp] theorem wellFormed_list_iff {items : List Value} :
    WellFormed (.list items) ↔ ∀ item ∈ items, WellFormed item :=
  ⟨fun | .list each => each, .list⟩

theorem wellFormed_dict_iff {entries : List (Value × Value)} :
    WellFormed (.dict entries) ↔
      HasDistinctKeys entries ∧ ∀ entry ∈ entries, WellFormed entry.2 :=
  ⟨fun | .dict keys values => ⟨keys, values⟩, fun wellFormed => .dict wellFormed.1 wellFormed.2⟩

/-- A value that may be a key holds no dict. -/
theorem wellFormed_of_isHashable
    {value : Value}
    (hashable : value.isHashable = true) :
    value.WellFormed := by
  cases value with
  | none | bool | int | float | str => simp
  | list | dict | function => contradiction

section Dicts

variable
  {key value : Value}
  {entries : List (Value × Value)}

/-- The keys of a dict are well formed. -/
theorem WellFormed.keys_of_dict
    (wellFormed : WellFormed (.dict entries)) :
    ∀ entry ∈ entries, entry.1.WellFormed := by
  obtain ⟨keys, -⟩ := wellFormed_dict_iff.mp wellFormed
  exact fun entry among => wellFormed_of_isHashable (keys.hashable entry among)

/-- A hashable key that is set leaves the keys distinct. -/
theorem HasDistinctKeys.setEntry
    (keys : HasDistinctKeys entries)
    (hashable : key.isHashable = true) :
    HasDistinctKeys (setEntry key value entries) := by
  refine ⟨fun entry among => ?_, ?_⟩
  · rcases (of_mem_setEntry among).1 with same | ⟨other, isOther, same⟩
    · rwa [same]
    · rw [same]
      exact keys.hashable other isOther
  · obtain ⟨-, distinct⟩ := keys
    induction entries with
    | nil => exact List.pairwise_singleton _ _
    | cons first entries inductionHypothesis =>
        obtain ⟨apart, distinct⟩ := List.pairwise_cons.mp distinct
        rw [Value.setEntry]
        split
        · exact List.pairwise_cons.mpr ⟨apart, distinct⟩
        · rename_i differs
          refine List.pairwise_cons.mpr ⟨fun later among => ?_, inductionHypothesis distinct⟩
          rcases (of_mem_setEntry among).1 with same | ⟨other, isOther, same⟩
          · rw [same]
            simpa using differs
          · rw [same]
            exact apart other isOther

end Dicts

/-- Evaluation keeps the dicts inside values well formed, whatever the lengths are. -/
def WellFormed.invariant : Invariant where
  Holds := WellFormed
  Allowed _ := True
  Keys := HasDistinctKeys
  allowed_max := trivial
  allowed_of_le _ _ := trivial
  keys_nil := ⟨by simp, .nil⟩
  keys_setEntry := HasDistinctKeys.setEntry
  of_isHashable := wellFormed_of_isHashable
  list_iff := wellFormed_list_iff.trans (iff_of_eq (true_and _)).symm
  dict_iff := by
    intro entries
    refine ⟨fun dict => ?_, fun ⟨_, keys, parts⟩ => .dict keys fun entry among =>
      (parts entry among).2⟩
    obtain ⟨keys, values⟩ := wellFormed_dict_iff.mp dict
    exact ⟨trivial, keys, fun entry among => ⟨dict.keys_of_dict entry among, values entry among⟩⟩
  of_function := by
    rintro closure ⟨⟩
    exact ⟨‹_›, closure.body.hasLengths_of_forall fun _ => trivial⟩

end Value
end TemplatedMarkup
