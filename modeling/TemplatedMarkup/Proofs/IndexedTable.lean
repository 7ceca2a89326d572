import Mathlib.Data.List.Basic
import TemplatedMarkup.Proofs.Table

/-!
# Tables with an index

A table may be kept in two parts: an index that finds the entry of a name, and beside it the names
in order of their first appearance.  Each change has to be made in both parts.  Whatever changes
are made, the parts stay in step, and what is read from them is what is read from the table that
keeps its entries in one list.
-/

namespace TemplatedMarkup
namespace Table

variable {Entry : Type}

/-! ## Changes -/

/-- A change of a table. -/
inductive Change (Entry : Type) where
  /-- Put an entry under a name. -/
  | set (name : String) (entry : Entry)
  /-- Take the entry under a name out. -/
  | take (name : String)

/-- The name that a change is about. -/
def Change.name : Change Entry → String
  | .set name _ => name
  | .take name => name

@[simp] theorem Change.name_set (name : String) (entry : Entry) :
    (Change.set name entry).name = name := rfl

@[simp] theorem Change.name_take (name : String) :
    (Change.take name : Change Entry).name = name := rfl

/-- The table that changes make out of the empty one, one after the other. -/
def ofChanges (changes : List (Change Entry)) : Table Entry :=
  changes.foldl
    (fun table change =>
      match change with
      | .set name entry => table.set name entry
      | .take name => table.erase name)
    empty

/-- Changes leave an entry under a name: the last of them that is about the name puts it there. -/
def LastSets (changes : List (Change Entry)) (name : String) (entry : Entry) : Prop :=
  ∃ front back, changes = front ++ .set name entry :: back ∧ ∀ change ∈ back, change.name ≠ name

/--
The place among some changes from which on a name is in the table: it is set there for the first
time since it was last taken.
-/
structure EntersAt (changes : List (Change Entry)) (name : String) (place : Nat) : Prop where
  /-- The name is set there. -/
  isSet : ∃ entry, changes[place]? = some (.set name entry)
  /-- It is not taken later. -/
  stays : ∀ later, place < later → changes[later]? ≠ some (.take name)
  /-- Wherever it is set before, it is taken in between. -/
  takenBefore : ∀ earlier < place, ∀ entry, changes[earlier]? = some (.set name entry) →
    ∃ between, earlier < between ∧ between < place ∧ changes[between]? = some (.take name)

/-- The names of an order have entered the table one after the other. -/
structure EnteredInOrder (changes : List (Change Entry)) (order : List String) : Prop where
  /-- Every one of them has entered. -/
  enters : ∀ name ∈ order, ∃ place, EntersAt changes name place
  /-- Of two names, the one that comes first in the order entered first. -/
  ascends : order.Pairwise fun former latter => ∀ place next,
    EntersAt changes former place → EntersAt changes latter next → place < next

section Changes

variable
  {changes : List (Change Entry)}
  {change : Change Entry}
  {name : String}
  {entry : Entry}
  {place : Nat}
  {order : List String}

/-! ### The last entry of a name -/

theorem lastSets_concat_iff :
    LastSets (changes ++ [change]) name entry ↔
      if change.name = name then change = .set name entry else LastSets changes name entry := by
  constructor
  · rintro ⟨front, back, isSplit, others⟩
    rcases List.eq_nil_or_concat back with rfl | ⟨between, last, rfl⟩
    · obtain ⟨-, same⟩ := List.append_inj' isSplit rfl
      simp [List.singleton_inj.mp same]
    · rw [List.concat_eq_append, ← List.cons_append, ← List.append_assoc] at isSplit
      obtain ⟨isFront, isLast⟩ := List.append_inj' isSplit rfl
      obtain rfl := List.singleton_inj.mp isLast
      rw [if_neg (others _ (by simp))]
      exact ⟨front, between, isFront, fun other among => others other (by simp [among])⟩
  · split
    · rintro rfl
      exact ⟨changes, [], rfl, by simp⟩
    · rename_i differs
      rintro ⟨front, back, rfl, others⟩
      refine ⟨front, back ++ [change], by simp, fun other among => ?_⟩
      rcases List.mem_append.mp among with among | isLast
      · exact others other among
      · rwa [List.mem_singleton.mp isLast]

/-- A name that is set somewhere and not taken after that is left with an entry. -/
theorem exists_lastSets
    (isSet : changes[place]? = some (.set name entry))
    (stays : ∀ later, place < later → changes[later]? ≠ some (.take name)) :
    ∃ last, LastSets changes name last := by
  induction changes using List.reverseRecOn with
  | nil => simp at isSet
  | append_singleton changes change inductionHypothesis =>
      have atEnd : (changes ++ [change])[changes.length]? = some change := by simp
      by_cases isLast : change = .set name entry
      · subst isLast
        exact ⟨entry, lastSets_concat_iff.mpr (by simp)⟩
      · have before : place < changes.length := by
          have short := (List.getElem?_eq_some_iff.mp isSet).1
          rw [List.length_append, List.length_singleton] at short
          refine Nat.lt_of_le_of_ne (Nat.le_of_lt_succ short) ?_
          rintro rfl
          exact isLast (Option.some.inj (atEnd.symm.trans isSet))
        by_cases same : change.name = name
        · cases change with
          | set other last =>
              obtain rfl : other = name := same
              exact ⟨last, lastSets_concat_iff.mpr (by simp)⟩
          | take other =>
              obtain rfl : other = name := same
              exact absurd atEnd (stays _ before)
        · rw [List.getElem?_append_left before] at isSet
          obtain ⟨last, lastSets⟩ := inductionHypothesis isSet fun later after found => by
            have short := (List.getElem?_eq_some_iff.mp found).1
            exact stays later after ((List.getElem?_append_left short).trans found)
          exact ⟨last, lastSets_concat_iff.mpr (by rwa [if_neg same])⟩

/-! ### The order of the names -/

theorem EntersAt.lt_length (enters : EntersAt changes name place) : place < changes.length := by
  obtain ⟨entry, isSet⟩ := enters.isSet
  exact (List.getElem?_eq_some_iff.mp isSet).1

/-- A name enters a table at one place only. -/
theorem EntersAt.unique
    {other : Nat}
    (enters : EntersAt changes name place)
    (entersThere : EntersAt changes name other) :
    place = other := by
  have notBefore {former latter : Nat}
      (first : EntersAt changes name former)
      (second : EntersAt changes name latter) : ¬former < latter := by
    intro before
    obtain ⟨entry, isSet⟩ := first.isSet
    obtain ⟨between, after, -, taken⟩ := second.takenBefore former before entry isSet
    exact first.stays between after taken
  apply Nat.le_antisymm
  · exact Nat.le_of_not_lt (notBefore entersThere enters)
  · exact Nat.le_of_not_lt (notBefore enters entersThere)

/-- A name keeps its place as long as it is not taken. -/
theorem EntersAt.concat
    (enters : EntersAt changes name place)
    (notTaken : change ≠ .take name) :
    EntersAt (changes ++ [change]) name place where
  isSet := by
    rw [List.getElem?_append_left enters.lt_length]
    exact enters.isSet
  stays := by
    intro later after found
    rcases Nat.lt_or_ge later changes.length with before | atEnd
    · rw [List.getElem?_append_left before] at found
      exact enters.stays later after found
    · rw [List.getElem?_append_right atEnd] at found
      exact notTaken (List.mem_singleton.mp (List.mem_of_getElem? found)).symm
  takenBefore := by
    intro earlier before entry isSet
    rw [List.getElem?_append_left (Nat.lt_trans before enters.lt_length)] at isSet
    obtain ⟨between, after, within, taken⟩ := enters.takenBefore earlier before entry isSet
    refine ⟨between, after, within, ?_⟩
    rwa [List.getElem?_append_left (Nat.lt_trans within enters.lt_length)]

/-- A name that has no entry enters where it is set. -/
theorem entersAt_length
    (absent : ∀ last, ¬LastSets changes name last)
    (entry : Entry) :
    EntersAt (changes ++ [.set name entry]) name changes.length where
  isSet := ⟨entry, by simp⟩
  stays := by
    intro later after
    rw [List.getElem?_eq_none (by simpa using Nat.succ_le_of_lt after)]
    exact nofun
  takenBefore := by
    intro earlier before old isSet
    rw [List.getElem?_append_left before] at isSet
    by_contra! notTaken
    obtain ⟨last, lastSets⟩ := exists_lastSets isSet fun later after found => by
      have within := (List.getElem?_eq_some_iff.mp found).1
      exact notTaken later after within ((List.getElem?_append_left within).trans found)
    exact absent last lastSets

/-- A change that takes none of the names leaves their order as it is. -/
theorem EnteredInOrder.concat
    (entered : EnteredInOrder changes order)
    (notTaken : ∀ name ∈ order, change ≠ .take name) :
    EnteredInOrder (changes ++ [change]) order where
  enters := by
    intro name among
    obtain ⟨place, enters⟩ := entered.enters name among
    exact ⟨place, enters.concat (notTaken name among)⟩
  ascends := by
    refine entered.ascends.imp_of_mem fun {former latter} isFormer isLatter before => ?_
    intro place next entersNow nextEntersNow
    obtain ⟨old, enters⟩ := entered.enters former isFormer
    obtain ⟨oldNext, nextEnters⟩ := entered.enters latter isLatter
    rw [entersNow.unique (enters.concat (notTaken former isFormer)),
      nextEntersNow.unique (nextEnters.concat (notTaken latter isLatter))]
    exact before old oldNext enters nextEnters

/-- A name that has no entry comes last when it is set. -/
theorem EnteredInOrder.concat_set
    (entered : EnteredInOrder changes order)
    (absent : ∀ last, ¬LastSets changes name last)
    (entry : Entry) :
    EnteredInOrder (changes ++ [.set name entry]) (order ++ [name]) := by
  have kept : EnteredInOrder (changes ++ [.set name entry]) order :=
    entered.concat fun _ _ => nofun
  have isNew := entersAt_length absent entry
  constructor
  · intro other among
    rcases List.mem_append.mp among with among | isLast
    · exact kept.enters other among
    · rw [List.mem_singleton.mp isLast]
      exact ⟨changes.length, isNew⟩
  · refine List.pairwise_append.mpr ⟨kept.ascends, List.pairwise_singleton _ _, ?_⟩
    intro former isFormer latter isLatter place next enters nextEnters
    rw [List.mem_singleton.mp isLatter] at nextEnters
    obtain ⟨old, oldEnters⟩ := entered.enters former isFormer
    rw [nextEnters.unique isNew, enters.unique (oldEnters.concat nofun)]
    exact oldEnters.lt_length

/-- Names that are left out do not change the order of the others. -/
theorem EnteredInOrder.filter
    (entered : EnteredInOrder changes order)
    (isLeft : String → Bool) :
    EnteredInOrder changes (order.filter isLeft) where
  enters name among := entered.enters name (List.mem_filter.mp among).1
  ascends := entered.ascends.filter _

end Changes

end Table

/--
A table in two parts: an index that finds the entry of a name, but has no order, and beside it the
names in order of their first appearance.
-/
structure IndexedTable (Entry : Type) where
  /-- The entries under their names. -/
  index : Std.HashMap String Entry
  /-- The names, in order of their first appearance. -/
  order : List String

namespace IndexedTable

open Table (Change LastSets EnteredInOrder)

variable {Entry : Type}

/-- The table without entries. -/
def empty : IndexedTable Entry :=
  ⟨∅, []⟩

/-- The entry under a name. -/
def get? (table : IndexedTable Entry) (name : String) : Option Entry :=
  table.index[name]?

/-- Whether there is an entry under a name. -/
def contains (table : IndexedTable Entry) (name : String) : Bool :=
  table.index.contains name

/-- How many entries there are. -/
def size (table : IndexedTable Entry) : Nat :=
  table.index.size

/-- Whether there are no entries. -/
def isEmpty (table : IndexedTable Entry) : Bool :=
  table.index.isEmpty

/-- The names of an order that an index has, each with its entry. -/
def entriesIn (index : Std.HashMap String Entry) (order : List String) : List (String × Entry) :=
  order.filterMap fun name => index[name]?.map fun entry => (name, entry)

/-- The entries in the order of their names. -/
def entries (table : IndexedTable Entry) : List (String × Entry) :=
  entriesIn table.index table.order

/-- Put an entry under a name; a name that the index does not have yet comes last in the order. -/
def set (table : IndexedTable Entry) (name : String) (entry : Entry) : IndexedTable Entry where
  index := table.index.insert name entry
  order := if table.index.contains name then table.order else table.order ++ [name]

/-- Take the entry under a name out of the index, and the name out of the order. -/
def take (table : IndexedTable Entry) (name : String) : Option Entry × IndexedTable Entry :=
  match table.index[name]? with
  | none => (none, table)
  | some entry => (some entry, ⟨table.index.erase name, table.order.filter (· ≠ name)⟩)

/-- The table that changes make out of the empty one, one after the other. -/
def ofChanges (changes : List (Change Entry)) : IndexedTable Entry :=
  changes.foldl
    (fun table change =>
      match change with
      | .set name entry => table.set name entry
      | .take name => (table.take name).2)
    empty

/-- The two parts of a table are in step: the order lists every name of the index once. -/
structure InStep (table : IndexedTable Entry) : Prop where
  /-- No name is listed twice. -/
  distinct : table.order.Nodup
  /-- The listed names are those of the index. -/
  mem_order_iff : ∀ name, name ∈ table.order ↔ name ∈ table.index

/-! ### One change of both parts -/

section Parts

variable
  {table : IndexedTable Entry}
  {name other : String}
  {entry : Entry}

theorem get?_set :
    (table.set name entry).get? other = if name = other then some entry else table.get? other := by
  simp [get?, set, Std.HashMap.getElem?_insert]

theorem get?_take :
    (table.take name).2.get? other = if name = other then none else table.get? other := by
  unfold take
  split
  · rename_i absent
    split
    · rename_i same
      exact same ▸ absent
    · rfl
  · simp [get?, Std.HashMap.getElem?_erase]

/-- What is taken is what was found. -/
theorem fst_take : (table.take name).1 = table.get? name := by
  unfold take get?
  split <;> simp_all

theorem inStep_empty : (empty : IndexedTable Entry).InStep where
  distinct := List.nodup_nil
  mem_order_iff := by simp [empty]

/-- Setting an entry keeps the parts in step. -/
theorem InStep.set (inStep : table.InStep) (name : String) (entry : Entry) :
    (table.set name entry).InStep := by
  unfold IndexedTable.set
  by_cases present : name ∈ table.index
  · rw [if_pos (Std.HashMap.mem_iff_contains.mp present)]
    refine ⟨inStep.distinct, fun other => ?_⟩
    rw [inStep.mem_order_iff, Std.HashMap.mem_insert, beq_iff_eq]
    constructor
    · exact Or.inr
    · rintro (rfl | among)
      · exact present
      · exact among
  · rw [if_neg (mt Std.HashMap.mem_iff_contains.mpr present)]
    have isNew : name ∉ table.order := mt (inStep.mem_order_iff name).mp present
    constructor
    · rw [List.nodup_append]
      refine ⟨inStep.distinct, by simp, fun first among last isLast => ?_⟩
      rw [List.mem_singleton.mp isLast]
      rintro rfl
      exact isNew among
    · intro other
      rw [List.mem_append, List.mem_singleton, inStep.mem_order_iff, Std.HashMap.mem_insert,
        beq_iff_eq, or_comm, eq_comm]

/-- Taking an entry keeps the parts in step: the name leaves both of them. -/
theorem InStep.take (inStep : table.InStep) (name : String) : (table.take name).2.InStep := by
  unfold IndexedTable.take
  split
  · exact inStep
  · refine ⟨inStep.distinct.filter _, fun other => ?_⟩
    rw [List.mem_filter, inStep.mem_order_iff, Std.HashMap.mem_erase, decide_eq_true_iff,
      beq_eq_false_iff_ne, and_comm, ne_comm]

/-- Every name of the order has an entry in the index. -/
theorem InStep.exists_of_mem
    (inStep : table.InStep)
    (among : name ∈ table.order) :
    ∃ entry, table.index[name]? = some entry := by
  have present := (inStep.mem_order_iff name).mp among
  exact Option.isSome_iff_exists.mp (Std.HashMap.mem_iff_isSome_getElem?.mp present)

/-- The entries are under the names of the order. -/
theorem InStep.map_entries (inStep : table.InStep) : table.entries.map (·.1) = table.order := by
  have found : ∀ name ∈ table.order,
      (table.index[name]?.map fun entry => (name, entry)).map (·.1) = some name := by
    intro name among
    obtain ⟨entry, isEntry⟩ := inStep.exists_of_mem among
    rw [isEntry]
    rfl
  rw [entries, entriesIn, List.map_filterMap, List.filterMap_congr found, List.filterMap_some]

theorem mem_entries_iff :
    (name, entry) ∈ table.entries ↔ name ∈ table.order ∧ table.get? name = some entry := by
  rw [entries, entriesIn, List.mem_filterMap]
  constructor
  · rintro ⟨other, among, isEntry⟩
    obtain ⟨found, isFound, same⟩ := Option.map_eq_some_iff.mp isEntry
    obtain ⟨rfl, rfl⟩ := Prod.mk.inj same
    exact ⟨among, isFound⟩
  · rintro ⟨among, isFound⟩
    exact ⟨name, among, Option.map_eq_some_iff.mpr ⟨entry, isFound, rfl⟩⟩

/-- A name has an entry in the index exactly if it is in the order. -/
theorem InStep.mem_entries_iff (inStep : table.InStep) :
    (name, entry) ∈ table.entries ↔ table.get? name = some entry := by
  rw [IndexedTable.mem_entries_iff, and_iff_right_iff_imp]
  intro isFound
  rw [inStep.mem_order_iff, Std.HashMap.mem_iff_isSome_getElem?]
  exact Option.isSome_of_eq_some isFound

/-- The index has as many names as the order. -/
theorem InStep.size_eq (inStep : table.InStep) : table.size = table.entries.length := by
  have sameNames : table.index.keys.Perm table.order := by
    refine (List.perm_ext_iff_of_nodup Std.HashMap.nodup_keys inStep.distinct).mpr fun name => ?_
    rw [Std.HashMap.mem_keys, inStep.mem_order_iff]
  calc table.size = table.index.keys.length := Std.HashMap.length_keys.symm
    _ = table.order.length := sameNames.length_eq
    _ = (table.entries.map (·.1)).length := by rw [inStep.map_entries]
    _ = table.entries.length := List.length_map _

theorem InStep.contains_iff (inStep : table.InStep) :
    table.contains name = true ↔ name ∈ table.entries.map (·.1) := by
  rw [inStep.map_entries, inStep.mem_order_iff]
  exact Std.HashMap.mem_iff_contains.symm

theorem InStep.isEmpty_iff (inStep : table.InStep) :
    table.isEmpty = true ↔ table.entries = [] := by
  have size : table.index.size = table.entries.length := inStep.size_eq
  rw [isEmpty, Std.HashMap.isEmpty_eq_size_eq_zero, beq_iff_eq, size, List.length_eq_zero_iff]

end Parts

/-! ### The same table in one part -/

section OnePart

variable
  {index other : Std.HashMap String Entry}
  {order : List String}
  {table : IndexedTable Entry}
  {name : String}

/-- Indexes that have the same for the names of an order have the same entries in it. -/
theorem entriesIn_congr
    (same : ∀ name ∈ order, index[name]? = other[name]?) :
    entriesIn index order = entriesIn other order :=
  List.filterMap_congr fun name among => congrArg (Option.map _) (same name among)

/-- A name that is not in an order may be set without a change of the entries in it. -/
theorem entriesIn_insert_of_not_mem
    (absent : name ∉ order)
    (entry : Entry) :
    entriesIn (index.insert name entry) order = entriesIn index order := by
  refine entriesIn_congr fun other among => ?_
  have differs : name ≠ other := fun same => absent (same ▸ among)
  simp [Std.HashMap.getElem?_insert, differs]

theorem entriesIn_cons
    {first : String}
    {entry : Entry}
    (found : index[first]? = some entry) :
    entriesIn index (first :: order) = (first, entry) :: entriesIn index order := by
  simp [entriesIn, found]

/-- A name of an order that is set again changes its entry in place. -/
theorem entriesIn_insert_of_mem
    (distinct : order.Nodup)
    (present : ∀ other ∈ order, ∃ entry, index[other]? = some entry)
    (among : name ∈ order)
    (entry : Entry) :
    entriesIn (index.insert name entry) order = Table.setIn name entry (entriesIn index order) := by
  induction order with
  | nil => contradiction
  | cons first order inductionHypothesis =>
      rw [List.nodup_cons] at distinct
      rw [List.forall_mem_cons] at present
      obtain ⟨⟨old, isOld⟩, present⟩ := present
      rw [entriesIn_cons isOld, Table.setIn]
      by_cases isFirst : first = name
      · subst isFirst
        rw [if_pos rfl, entriesIn_cons Std.HashMap.getElem?_insert_self,
          entriesIn_insert_of_not_mem distinct.1]
      · have later : name ∈ order := (List.mem_cons.mp among).resolve_left (Ne.symm isFirst)
        have kept : (index.insert name entry)[first]? = some old := by
          simp [Std.HashMap.getElem?_insert, Ne.symm isFirst, isOld]
        rw [if_neg isFirst, entriesIn_cons kept, inductionHypothesis distinct.2 present later]

/-- Setting an entry in both parts sets it among the entries. -/
theorem InStep.entries_set (inStep : table.InStep) (name : String) (entry : Entry) :
    (table.set name entry).entries = Table.setIn name entry table.entries := by
  unfold IndexedTable.set entries
  by_cases present : name ∈ table.index
  · rw [if_pos (Std.HashMap.mem_iff_contains.mp present)]
    exact entriesIn_insert_of_mem inStep.distinct (fun _ => inStep.exists_of_mem)
      ((inStep.mem_order_iff name).mpr present) entry
  · rw [if_neg (mt Std.HashMap.mem_iff_contains.mpr present)]
    have isNew : name ∉ table.order := mt (inStep.mem_order_iff name).mp present
    have absent : name ∉ table.entries.map (·.1) := inStep.map_entries ▸ isNew
    calc entriesIn (table.index.insert name entry) (table.order ++ [name])
        = entriesIn (table.index.insert name entry) table.order ++
            entriesIn (table.index.insert name entry) [name] := List.filterMap_append
      _ = entriesIn table.index table.order ++ [(name, entry)] := by
        rw [entriesIn_insert_of_not_mem isNew, entriesIn_cons Std.HashMap.getElem?_insert_self]
        rfl
      _ = Table.setIn name entry (entriesIn table.index table.order) :=
        (Table.setIn_of_not_mem absent entry).symm

/-- Taking an entry out of both parts takes it from the entries. -/
theorem InStep.entries_take (inStep : table.InStep) (name : String) :
    (table.take name).2.entries = table.entries.filter (·.1 ≠ name) := by
  unfold IndexedTable.take
  split
  · rename_i absent
    refine (List.filter_eq_self.mpr fun entry among => ?_).symm
    rw [decide_eq_true_iff]
    rintro rfl
    have isFound := inStep.mem_entries_iff.mp among
    rw [get?, absent] at isFound
    contradiction
  · unfold entries entriesIn
    rw [List.filterMap_filter, List.filter_filterMap]
    refine List.filterMap_congr fun other _ => ?_
    by_cases same : other = name
    · subst same
      cases table.index[other]? <;> simp [Option.filter]
    · have kept : (table.index.erase name)[other]? = table.index[other]? := by
        simp [Std.HashMap.getElem?_erase, Ne.symm same]
      rw [if_pos (by simpa using same), kept]
      cases table.index[other]? <;> simp [Option.filter, same]

/-- An entry is found among the entries as it is found in the index. -/
theorem lookup_entriesIn :
    (entriesIn index order).lookup name = if name ∈ order then index[name]? else none := by
  induction order with
  | nil => rfl
  | cons first order inductionHypothesis =>
      cases found : index[first]? with
      | none =>
          have skipped : entriesIn index (first :: order) = entriesIn index order := by
            simp [entriesIn, found]
          rw [skipped, inductionHypothesis]
          by_cases isFirst : name = first
          · subst isFirst
            simp [found]
          · simp [isFirst]
      | some entry =>
          rw [entriesIn_cons found, Table.lookup_cons_eq, inductionHypothesis]
          by_cases isFirst : name = first
          · subst isFirst
            simp [found]
          · simp [isFirst]

end OnePart

/-! ### All changes -/

section Changes

variable
  {changes : List (Change Entry)}
  {change : Change Entry}
  {name : String}
  {entry : Entry}
  {place : Nat}

theorem ofChanges_concat_set :
    ofChanges (changes ++ [.set name entry]) = (ofChanges changes).set name entry := by
  simp [ofChanges]

theorem ofChanges_concat_take :
    ofChanges (changes ++ [.take name]) = ((ofChanges changes).take name).2 := by
  simp [ofChanges]

/-- Whatever changes are made, both parts of a table are in step. -/
theorem inStep_ofChanges (changes : List (Change Entry)) : (ofChanges changes).InStep := by
  induction changes using List.reverseRecOn with
  | nil => exact inStep_empty
  | append_singleton changes change inductionHypothesis =>
      cases change with
      | set name entry => exact ofChanges_concat_set ▸ inductionHypothesis.set name entry
      | take name => exact ofChanges_concat_take ▸ inductionHypothesis.take name

/-- Under a name there is what was last set there and not taken since. -/
theorem get?_ofChanges_eq_some_iff :
    (ofChanges changes).get? name = some entry ↔ LastSets changes name entry := by
  induction changes using List.reverseRecOn with
  | nil => simp [ofChanges, empty, get?, LastSets]
  | append_singleton changes change inductionHypothesis =>
      rw [Table.lastSets_concat_iff, ← inductionHypothesis]
      cases change with
      | set other last =>
          rw [ofChanges_concat_set, get?_set]
          by_cases same : other = name
          · simp [Change.name, same]
          · simp [Change.name, same]
      | take other =>
          rw [ofChanges_concat_take, get?_take]
          by_cases same : other = name
          · simp [Change.name, same]
          · simp [Change.name, same]

/-- The order of a table is that in which its names entered. -/
theorem enteredInOrder_ofChanges (changes : List (Change Entry)) :
    EnteredInOrder changes (ofChanges changes).order := by
  induction changes using List.reverseRecOn with
  | nil => exact ⟨nofun, List.Pairwise.nil⟩
  | append_singleton changes change inductionHypothesis =>
      have inStep := inStep_ofChanges changes
      cases change with
      | set name entry =>
          rw [ofChanges_concat_set, IndexedTable.set]
          by_cases present : name ∈ (ofChanges changes).index
          · rw [if_pos (Std.HashMap.mem_iff_contains.mp present)]
            exact inductionHypothesis.concat fun _ _ => nofun
          · rw [if_neg (mt Std.HashMap.mem_iff_contains.mpr present)]
            refine inductionHypothesis.concat_set (fun last lastSets => present ?_) entry
            rw [Std.HashMap.mem_iff_isSome_getElem?]
            exact Option.isSome_of_eq_some (get?_ofChanges_eq_some_iff.mpr lastSets)
      | take name =>
          have inStep := inStep_ofChanges (changes ++ [.take name])
          rw [ofChanges_concat_take] at inStep ⊢
          -- The name is not in the order any more, so none of the names left is taken.
          have isGone : ((ofChanges changes).take name).2.get? name = none := by
            rw [get?_take, if_pos rfl]
          refine EnteredInOrder.concat ?_ fun other among isTaken => ?_
          · unfold IndexedTable.take
            split
            · exact inductionHypothesis
            · exact inductionHypothesis.filter _
          · obtain rfl : name = other := congrArg Change.name isTaken
            obtain ⟨entry, isEntry⟩ := inStep.exists_of_mem among
            exact absurd (isGone.symm.trans isEntry) nofun

end Changes

/-! ### Main result -/

/-- The parts of a table answer alike: each question to the index is answered by the entries. -/
structure AnswersAlike (table : IndexedTable Entry) : Prop where
  /-- The entries are under the names of the order, one for each. -/
  names : table.entries.map (·.1) = table.order
  /-- What is found is what is listed. -/
  mem_iff : ∀ name entry, (name, entry) ∈ table.entries ↔ table.get? name = some entry
  size : table.size = table.entries.length
  contains_iff : ∀ name, table.contains name = true ↔ name ∈ table.entries.map (·.1)
  isEmpty_iff : table.isEmpty = true ↔ table.entries = []

theorem InStep.answersAlike
    {table : IndexedTable Entry}
    (inStep : table.InStep) :
    table.AnswersAlike where
  names := inStep.map_entries
  mem_iff _ _ := inStep.mem_entries_iff
  size := inStep.size_eq
  contains_iff _ := inStep.contains_iff
  isEmpty_iff := inStep.isEmpty_iff

/-- A table in two parts has the entries of one that is a single list, and answers like it. -/
structure Represents (table : IndexedTable Entry) (single : Table Entry) : Prop where
  entries : table.entries = single.entries
  get? : ∀ name, table.get? name = single.get? name
  /-- An entry is taken where the single list looks it up and erases it. -/
  taken : ∀ name, (table.take name).1 = single.get? name
  contains : ∀ name, table.contains name = single.contains name
  size : table.size = single.size
  isEmpty : table.isEmpty = single.isEmpty

/-- Tables with the same entries answer alike. -/
theorem InStep.represents
    {table : IndexedTable Entry}
    {single : Table Entry}
    (inStep : table.InStep)
    (entries : table.entries = single.entries) :
    table.Represents single := by
  have found (name : String) : table.get? name = single.get? name := by
    rw [Table.get?, ← entries, IndexedTable.entries, lookup_entriesIn]
    split
    · rfl
    · rename_i absent
      rw [inStep.mem_order_iff] at absent
      exact Std.HashMap.getElem?_eq_none absent
  refine ⟨entries, found, fun name => fst_take.trans (found name), fun name => ?_, ?_, ?_⟩
  · rw [Table.contains, ← found]
    exact Std.HashMap.contains_eq_isSome_getElem?
  · rw [inStep.size_eq, entries, Table.size]
  · rw [Bool.eq_iff_iff, inStep.isEmpty_iff, entries, Table.isEmpty, List.isEmpty_iff]

/-- The same changes make the same entries in two parts and in one list. -/
theorem entries_ofChanges (changes : List (Change Entry)) :
    (ofChanges changes).entries = (Table.ofChanges changes).entries := by
  induction changes using List.reverseRecOn with
  | nil => rfl
  | append_singleton changes change inductionHypothesis =>
      have inStep := inStep_ofChanges changes
      cases change with
      | set name entry =>
          rw [ofChanges_concat_set, inStep.entries_set, inductionHypothesis]
          simp [Table.ofChanges, Table.set]
      | take name =>
          rw [ofChanges_concat_take, inStep.entries_take, inductionHypothesis]
          simp [Table.ofChanges, Table.erase]

/--
Whatever entries are set and taken, the order and the index have the same names, each of them once,
and all that is read from either agrees.  The names stand in the order in which they were first set
since they were last taken, a name has the entry that was last set under it, and the table in one
list is the same.
-/
theorem ofChanges_inStep (changes : List (Change Entry)) :
    (ofChanges changes).InStep ∧
      (ofChanges changes).AnswersAlike ∧
      EnteredInOrder changes ((ofChanges changes).entries.map (·.1)) ∧
      (∀ name entry, (ofChanges changes).get? name = some entry ↔ LastSets changes name entry) ∧
      (ofChanges changes).Represents (Table.ofChanges changes) := by
  have inStep := inStep_ofChanges changes
  refine ⟨inStep, inStep.answersAlike, ?_, fun name entry => get?_ofChanges_eq_some_iff,
    inStep.represents (entries_ofChanges changes)⟩
  rw [inStep.map_entries]
  exact enteredInOrder_ofChanges changes

/-- A name that is taken and set again comes last, one that is set twice keeps its place. -/
example :
    (Table.ofChanges
      [.set "a" 1, .set "b" 2, .set "c" 3, .take "a", .set "b" 4, .set "a" 5]).entries =
      [("b", 4), ("c", 3), ("a", 5)] := rfl

end IndexedTable
end TemplatedMarkup
