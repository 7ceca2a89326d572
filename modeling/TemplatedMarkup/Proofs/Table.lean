import Mathlib.Data.List.Induction
import TemplatedMarkup.Table

/-!
# Laws of tables

Reading an entry back, the order in which entries are set, the merging of a table whose names are
distinct into another one, and what a table keeps of a list of entries.
-/

namespace TemplatedMarkup
namespace Table

variable {Entry : Type}

/-! ## Entries in a list -/

theorem lookup_cons_eq
    (name other : String)
    (entry : Entry)
    (entries : List (String × Entry)) :
    ((name, entry) :: entries).lookup other =
      if other = name then some entry else entries.lookup other := by
  rw [List.lookup_cons]
  by_cases same : other = name
  · simp [same]
  · have differs : (other == name) = false := by simpa using same
    rw [differs, if_neg same]

/-- A name that is not among those of a list has no entry in it. -/
theorem lookup_eq_none_of_not_mem
    {name : String}
    {entries : List (String × Entry)}
    (absent : name ∉ entries.map (·.1)) :
    entries.lookup name = none := by
  refine List.lookup_eq_none_iff.mpr fun entry among => ?_
  simp only [bne_iff_ne, ne_eq]
  rintro rfl
  exact absent (List.mem_map_of_mem among)

theorem lookup_setIn
    (name other : String)
    (entry : Entry)
    (entries : List (String × Entry)) :
    (setIn name entry entries).lookup other =
      if other = name then some entry else entries.lookup other := by
  induction entries with
  | nil => exact lookup_cons_eq name other entry []
  | cons first entries inductionHypothesis =>
      obtain ⟨firstName, firstEntry⟩ := first
      by_cases isFirst : firstName = name
      · subst isFirst
        rw [setIn, if_pos rfl, lookup_cons_eq, lookup_cons_eq]
        split <;> rfl
      · rw [setIn, if_neg isFirst, lookup_cons_eq, lookup_cons_eq, inductionHypothesis]
        by_cases atFirst : other = firstName
        · subst atFirst
          simp [isFirst]
        · simp [atFirst]

/-- Setting an entry adds its name unless it is there. -/
theorem map_setIn
    (name : String)
    (entry : Entry)
    (entries : List (String × Entry)) :
    (setIn name entry entries).map (·.1) =
      if name ∈ entries.map (·.1) then entries.map (·.1) else entries.map (·.1) ++ [name] := by
  induction entries with
  | nil => simp [setIn]
  | cons first entries inductionHypothesis =>
      obtain ⟨firstName, firstEntry⟩ := first
      by_cases isFirst : firstName = name
      · simp [setIn, isFirst]
      · rw [setIn, if_neg isFirst, List.map_cons, inductionHypothesis]
        by_cases among : name ∈ entries.map (·.1)
        · simp [among]
        · simp [among, Ne.symm isFirst]

/-- An entry under a name that is not there comes last. -/
theorem setIn_of_not_mem
    {name : String}
    {entries : List (String × Entry)}
    (absent : name ∉ entries.map (·.1))
    (entry : Entry) :
    setIn name entry entries = entries ++ [(name, entry)] := by
  induction entries with
  | nil => rfl
  | cons first entries inductionHypothesis =>
      rw [List.map_cons, List.mem_cons, not_or] at absent
      rw [setIn, if_neg (Ne.symm absent.1), inductionHypothesis absent.2]
      rfl

/-- Setting an entry twice leaves the second one. -/
theorem setIn_setIn_self
    (name : String)
    (first second : Entry)
    (entries : List (String × Entry)) :
    setIn name second (setIn name first entries) = setIn name second entries := by
  induction entries with
  | nil => simp [setIn]
  | cons head entries inductionHypothesis =>
      by_cases isHead : head.1 = name
      · simp [setIn, isHead]
      · simp [setIn, isHead, inductionHypothesis]

/-- An entry that is there may be set before or after another one. -/
theorem setIn_comm
    {name other : String}
    (different : other ≠ name)
    (entry otherEntry : Entry)
    {entries : List (String × Entry)}
    (among : name ∈ entries.map (·.1)) :
    setIn name entry (setIn other otherEntry entries) =
      setIn other otherEntry (setIn name entry entries) := by
  induction entries with
  | nil => simp at among
  | cons head entries inductionHypothesis =>
      by_cases isName : head.1 = name
      · have notOther : head.1 ≠ other := fun same => different (same.symm.trans isName)
        simp [setIn, isName, different.symm]
      · have later : name ∈ entries.map (·.1) := by
          rcases List.mem_cons.mp among with same | later
          · exact absurd same.symm isName
          · exact later
        by_cases isOther : head.1 = other
        · simp [setIn, isOther, different]
        · simp [setIn, isName, isOther, inductionHypothesis later]

/-! ## Tables -/

@[simp] theorem get?_empty (name : String) : (empty : Table Entry).get? name = none := rfl

/-- An entry that was set is read back, and the others stay. -/
theorem get?_set
    (table : Table Entry)
    (name other : String)
    (entry : Entry) :
    (table.set name entry).get? other = if other = name then some entry else table.get? other :=
  lookup_setIn name other entry table.entries

/-- An entry that is set adds its name to those of the table. -/
theorem mem_names_set
    {table : Table Entry}
    {name other : String}
    {entry : Entry} :
    other ∈ (table.set name entry).names ↔ other = name ∨ other ∈ table.names := by
  change other ∈ (setIn name entry table.entries).map (·.1) ↔
    other = name ∨ other ∈ table.entries.map (·.1)
  rw [map_setIn]
  split
  · rename_i present
    exact ⟨.inr, fun among => among.elim (fun same => same ▸ present) id⟩
  · rw [List.mem_append, List.mem_singleton, or_comm]

/-- Setting an entry keeps names distinct. -/
theorem nodup_set
    {table : Table Entry}
    (distinct : table.names.Nodup)
    (name : String)
    (entry : Entry) :
    (table.set name entry).names.Nodup := by
  change ((setIn name entry table.entries).map (·.1)).Nodup
  rw [map_setIn]
  split
  · exact distinct
  · rename_i absent
    rw [List.nodup_append]
    refine ⟨distinct, by simp, fun first among second isLast => ?_⟩
    rw [List.mem_singleton] at isLast
    rintro rfl
    exact absent (isLast ▸ among)

/-- An entry of a merged table is that of the table put over it, if there is one. -/
theorem get?_merge
    {other : Table Entry}
    (distinct : other.names.Nodup)
    (table : Table Entry)
    (name : String) :
    (table.merge other).get? name = (other.get? name).or (table.get? name) := by
  obtain ⟨entries⟩ := other
  change (entries.foldl (fun merged entry => merged.set entry.1 entry.2) table).get? name =
    (entries.lookup name).or (table.get? name)
  induction entries generalizing table with
  | nil => rfl
  | cons first entries inductionHypothesis =>
      obtain ⟨firstName, firstEntry⟩ := first
      have separate : firstName ∉ entries.map (·.1) ∧ (entries.map (·.1)).Nodup :=
        List.nodup_cons.mp distinct
      rw [List.foldl_cons, inductionHypothesis _ separate.2, get?_set, lookup_cons_eq]
      by_cases isFirst : name = firstName
      · subst isFirst
        simp [lookup_eq_none_of_not_mem separate.1]
      · simp [isFirst]

/-- The last entry of a list that is put over a table is set behind the others. -/
theorem merge_concat
    (table : Table Entry)
    (entries : List (String × Entry))
    (last : String × Entry) :
    table.merge ⟨entries ++ [last]⟩ = (table.merge ⟨entries⟩).set last.1 last.2 := by
  simp [merge]

/-- An entry of a table that a list of entries is put over is the last one that the list has. -/
theorem get?_merge_entries
    (table : Table Entry)
    (entries : List (String × Entry))
    (name : String) :
    (table.merge ⟨entries⟩).get? name = (entries.reverse.lookup name).or (table.get? name) := by
  induction entries using List.reverseRecOn with
  | nil => rfl
  | append_singleton entries last inductionHypothesis =>
      rw [merge_concat, get?_set, inductionHypothesis, List.reverse_concat, lookup_cons_eq]
      split_ifs <;> rfl

/--
A list of entries that is put over a table decides what its names have, the last entry of each
name, and leaves the other names as they are.
-/
structure PutsOver
    (table : Table Entry)
    (entries : List (String × Entry))
    (after : Table Entry) : Prop where
  /-- The last entry of a name is the one that it has. -/
  last : ∀ front name entry back, entries = front ++ (name, entry) :: back →
    name ∉ back.map (·.1) → after.get? name = some entry
  /-- The names that are not in the list keep their entries. -/
  others : ∀ name, name ∉ entries.map (·.1) → after.get? name = table.get? name

theorem putsOver_merge
    (table : Table Entry)
    (entries : List (String × Entry)) :
    PutsOver table entries (table.merge ⟨entries⟩) where
  last := by
    rintro front name entry back rfl notLater
    have nothing : back.reverse.lookup name = none :=
      lookup_eq_none_of_not_mem (by simpa using notLater)
    rw [get?_merge_entries, List.reverse_append, List.reverse_cons, List.append_assoc,
      List.lookup_append, nothing, Option.none_or, List.singleton_append, lookup_cons_eq,
      if_pos rfl, Option.some_or]
  others := by
    intro name absent
    have nothing : entries.reverse.lookup name = none :=
      lookup_eq_none_of_not_mem (by simpa using absent)
    rw [get?_merge_entries, nothing, Option.none_or]

/-- Setting an entry twice leaves the second one. -/
theorem set_set_self
    (table : Table Entry)
    (name : String)
    (first second : Entry) :
    (table.set name first).set name second = table.set name second :=
  congrArg mk (setIn_setIn_self name first second table.entries)

/-- An entry that is there may be set before or after another one. -/
theorem set_comm
    {table : Table Entry}
    {name other : String}
    (different : other ≠ name)
    (entry otherEntry : Entry)
    (among : name ∈ table.names) :
    (table.set name entry).set other otherEntry = (table.set other otherEntry).set name entry :=
  congrArg mk (setIn_comm different entry otherEntry among).symm

/-- What is set before other entries are put over a table may be set behind them. -/
theorem foldl_set_comm
    {name : String}
    {entries : List (String × Entry)}
    (absent : name ∉ entries.map (·.1))
    (entry : Entry)
    {table : Table Entry}
    (among : name ∈ table.names) :
    entries.foldl (fun merged entry => merged.set entry.1 entry.2) (table.set name entry) =
      (entries.foldl (fun merged entry => merged.set entry.1 entry.2) table).set name entry := by
  induction entries generalizing table with
  | nil => rfl
  | cons first entries inductionHypothesis =>
      rw [List.map_cons, List.mem_cons, not_or] at absent
      have kept : name ∈ (table.set first.1 first.2).names := mem_names_set.mpr (.inr among)
      rw [List.foldl_cons, set_comm (Ne.symm absent.1) entry first.2 among,
        inductionHypothesis absent.2 kept, List.foldl_cons]

/-- An entry set in a table is set in what the table is put over. -/
theorem merge_set
    {other : Table Entry}
    (distinct : other.names.Nodup)
    (table : Table Entry)
    (name : String)
    (entry : Entry) :
    table.merge (other.set name entry) = (table.merge other).set name entry := by
  obtain ⟨entries⟩ := other
  change (setIn name entry entries).foldl (fun merged entry => merged.set entry.1 entry.2) table =
    (entries.foldl (fun merged entry => merged.set entry.1 entry.2) table).set name entry
  induction entries generalizing table with
  | nil => rfl
  | cons first entries inductionHypothesis =>
      have separate : first.1 ∉ entries.map (·.1) ∧ (entries.map (·.1)).Nodup :=
        List.nodup_cons.mp distinct
      by_cases isFirst : first.1 = name
      · subst isFirst
        have present : first.1 ∈ (table.set first.1 first.2).names := mem_names_set.mpr (.inl rfl)
        rw [setIn, if_pos rfl, List.foldl_cons, List.foldl_cons,
          ← set_set_self table first.1 first.2 entry, foldl_set_comm separate.1 entry present]
      · rw [setIn, if_neg isFirst, List.foldl_cons, List.foldl_cons,
          inductionHypothesis _ separate.2]

/-! ## Merging twice -/

/-- The names of a merged table are those of both tables. -/
theorem mem_names_merge
    {table other : Table Entry}
    {name : String} :
    name ∈ (table.merge other).names ↔ name ∈ table.names ∨ name ∈ other.names := by
  obtain ⟨entries⟩ := other
  induction entries generalizing table with
  | nil => simp [merge, names]
  | cons first entries inductionHypothesis =>
      change name ∈ ((table.set first.1 first.2).merge ⟨entries⟩).names ↔
        name ∈ table.names ∨ name ∈ first.1 :: names ⟨entries⟩
      rw [inductionHypothesis, mem_names_set, List.mem_cons, or_comm (a := name = first.1),
        or_assoc]

/-- An entry that is replaced in the end leaves no trace below entries whose names are there. -/
theorem merge_set_below
    {table other : Table Entry}
    (present : ∀ name ∈ other.names, name ∈ table.names)
    (name : String)
    (below entry : Entry) :
    ((table.set name below).merge other).set name entry = (table.merge other).set name entry := by
  obtain ⟨entries⟩ := other
  induction entries generalizing table below with
  | nil => exact set_set_self table name below entry
  | cons first entries inductionHypothesis =>
      rw [names, List.map_cons, List.forall_mem_cons] at present
      have stays : ∀ other ∈ names ⟨entries⟩, other ∈ (table.set first.1 first.2).names :=
        fun other among => mem_names_set.mpr (.inr (present.2 other among))
      change (((table.set name below).set first.1 first.2).merge ⟨entries⟩).set name entry =
        ((table.set first.1 first.2).merge ⟨entries⟩).set name entry
      by_cases isFirst : name = first.1
      · rw [isFirst, set_set_self]
      · rw [← set_comm isFirst first.2 below present.1]
        exact inductionHypothesis below stays

/-- A table that is put over another one twice is put over it once. -/
theorem merge_merge_self (table other : Table Entry) :
    (table.merge other).merge other = table.merge other := by
  obtain ⟨entries⟩ := other
  induction entries using List.reverseRecOn with
  | nil => rfl
  | append_singleton entries last inductionHypothesis =>
      have present : ∀ name ∈ names ⟨entries⟩, name ∈ (table.merge ⟨entries⟩).names :=
        fun name among => mem_names_merge.mpr (.inr among)
      rw [merge_concat, merge_concat, merge_set_below present, inductionHypothesis]

/-! ## Tables of lists -/

theorem ofList_concat
    (entries : List (String × Entry))
    (last : String × Entry) :
    ofList (entries ++ [last]) = (ofList entries).set last.1 last.2 :=
  merge_concat empty entries last

/-- The names of a list of entries stay in the order in which they first appear. -/
theorem names_ofList (entries : List (String × Entry)) :
    (ofList entries).names = (entries.map (·.1)).eraseDups := by
  induction entries using List.reverseRecOn with
  | nil => rfl
  | append_singleton entries last inductionHypothesis =>
      have added : ((ofList entries).set last.1 last.2).names =
          if last.1 ∈ (ofList entries).names then (ofList entries).names
          else (ofList entries).names ++ [last.1] :=
        map_setIn last.1 last.2 (ofList entries).entries
      rw [ofList_concat, added, inductionHypothesis, List.map_append, List.eraseDups_append]
      by_cases among : last.1 ∈ entries.map (·.1)
      · rw [if_pos (List.mem_eraseDups.mpr among)]
        simp [List.removeAll, among]
      · rw [if_neg fun isName => among (List.mem_eraseDups.mp isName)]
        simp [List.removeAll, among, List.eraseDups_cons]

/-- Of the entries under one name in a list, the last one stays. -/
theorem get?_ofList
    (entries : List (String × Entry))
    (name : String) :
    (ofList entries).get? name = entries.reverse.lookup name := by
  rw [ofList, get?_merge_entries, get?_empty, Option.or_none]

/-- Entries under distinct names all stay, in their order. -/
theorem entries_ofList
    {entries : List (String × Entry)}
    (distinct : (entries.map (·.1)).Nodup) :
    (ofList entries).entries = entries := by
  induction entries using List.reverseRecOn with
  | nil => rfl
  | append_singleton entries last inductionHypothesis =>
      rw [List.map_append, List.nodup_append] at distinct
      have isNew : last.1 ∉ entries.map (·.1) := fun among =>
        distinct.2.2 _ among last.1 (by simp) rfl
      rw [ofList_concat, set, inductionHypothesis distinct.1]
      exact setIn_of_not_mem isNew last.2

end Table
end TemplatedMarkup
