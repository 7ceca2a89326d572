import TemplatedMarkup.Proofs.Expression.Tree
import TemplatedMarkup.Proofs.Outcome
import TemplatedMarkup.Proofs.Value.Slice

/-!
# Invariants of evaluation

Evaluation changes dicts by insertion only, checks the length of every list that may be longer than
those it is given, and otherwise puts parts of what it is given together.  So it keeps every
property that asks for lengths of lists and dicts, for properties of keys that insertion keeps, and
for the same of all parts.  This module states what such a property is and that operators, indices
and slices keep it.
-/

namespace TemplatedMarkup

/-- The dict displays and the argument lists in an expression have allowed lengths. -/
inductive Expression.Expr.HasLengths (Allowed : Nat → Prop) : Expr → Prop where
  | literal (value : Literal) : HasLengths Allowed (.literal value)
  | reference (name : String) : HasLengths Allowed (.variable name)
  | list {items : List Expr} :
      (∀ item ∈ items, HasLengths Allowed item) → HasLengths Allowed (.list items)
  | dict {entries : List (Expr × Expr)} :
      Allowed entries.length → (∀ entry ∈ entries, HasLengths Allowed entry.1) →
      (∀ entry ∈ entries, HasLengths Allowed entry.2) → HasLengths Allowed (.dict entries)
  | unary {operator : UnaryOperator} {operand : Expr} :
      HasLengths Allowed operand → HasLengths Allowed (.unary operator operand)
  | binary {operator : BinaryOperator} {left right : Expr} :
      HasLengths Allowed left → HasLengths Allowed right →
      HasLengths Allowed (.binary operator left right)
  | comparison {first : Expr} {links : List (Comparison × Expr)} :
      HasLengths Allowed first → (∀ link ∈ links, HasLengths Allowed link.2) →
      HasLengths Allowed (.comparison first links)
  | conditional {condition consequence alternative : Expr} :
      HasLengths Allowed condition → HasLengths Allowed consequence →
      HasLengths Allowed alternative →
      HasLengths Allowed (.conditional condition consequence alternative)
  | call {name : String} {arguments : List Expr} :
      Allowed arguments.length → (∀ argument ∈ arguments, HasLengths Allowed argument) →
      HasLengths Allowed (.call name arguments)
  | method {receiver : Expr} {name : String} {arguments : List Expr} :
      HasLengths Allowed receiver → Allowed arguments.length →
      (∀ argument ∈ arguments, HasLengths Allowed argument) →
      HasLengths Allowed (.method receiver name arguments)
  | index {collection position : Expr} :
      HasLengths Allowed collection → HasLengths Allowed position →
      HasLengths Allowed (.index collection position)
  | slice {collection : Expr} {start stop step : Option Expr} :
      HasLengths Allowed collection → (∀ bound ∈ start, HasLengths Allowed bound) →
      (∀ bound ∈ stop, HasLengths Allowed bound) → (∀ bound ∈ step, HasLengths Allowed bound) →
      HasLengths Allowed (.slice collection start stop step)

/-- When every length is allowed, every expression has allowed lengths. -/
theorem Expression.Expr.hasLengths_of_forall
    {Allowed : Nat → Prop}
    (all : ∀ length, Allowed length)
    (expression : Expr) :
    expression.HasLengths Allowed := by
  induction expression using Expr.partsInduction with
  | literal value => exact .literal value
  | reference name => exact .reference name
  | list items each => exact .list each
  | dict entries each =>
      exact .dict (all _) (fun entry among => (each entry among).1)
        fun entry among => (each entry among).2
  | unary operator operand has => exact .unary has
  | binary operator left right leftHas rightHas => exact .binary leftHas rightHas
  | comparison first links firstHas each => exact .comparison firstHas each
  | conditional condition consequence alternative conditionHas consequenceHas alternativeHas =>
      exact .conditional conditionHas consequenceHas alternativeHas
  | call name arguments each => exact .call (all _) each
  | method receiver name arguments receiverHas each => exact .method receiverHas (all _) each
  | index collection position collectionHas positionHas => exact .index collectionHas positionHas
  | slice collection start stop step collectionHas startHas stopHas stepHas =>
      exact .slice collectionHas startHas stopHas stepHas

namespace Value

/-- A property of values that evaluation keeps. -/
structure Invariant where
  /-- What holds of every value. -/
  Holds : Value → Prop
  /-- The lengths of lists and dicts. -/
  Allowed : Nat → Prop
  /-- What is asked of the keys of a dict. -/
  Keys : List (Value × Value) → Prop
  /-- Evaluation may build lists up to its limit. -/
  allowed_max : Allowed maxSequenceLength
  /-- Shorter lists and dicts are allowed as well. -/
  allowed_of_le : ∀ {shorter length}, shorter ≤ length → Allowed length → Allowed shorter
  /-- Nothing is asked of a dict without entries. -/
  keys_nil : Keys []
  /-- Insertion keeps what is asked of the keys. -/
  keys_setEntry : ∀ {key value entries}, Keys entries → key.isHashable = true →
    Keys (setEntry key value entries)
  /-- Nothing is asked of values without parts. -/
  of_isHashable : ∀ {value : Value}, value.isHashable = true → Holds value
  /-- A list has an allowed length, and its items are such values. -/
  list_iff : ∀ {items}, Holds (.list items) ↔ Allowed items.length ∧ ∀ item ∈ items, Holds item
  /-- So does a dict, whose keys are as asked. -/
  dict_iff : ∀ {entries}, Holds (.dict entries) ↔
    Allowed entries.length ∧ Keys entries ∧ ∀ entry ∈ entries, Holds entry.1 ∧ Holds entry.2
  /-- The defaults of a function are such values, and its body has allowed lengths. -/
  of_function : ∀ {closure : Function}, Holds (.function closure) →
    (∀ parameter ∈ closure.parameters, ∀ default ∈ parameter.default, Holds default) ∧
      closure.body.HasLengths Allowed

namespace Invariant

section Parts

variable (invariant : Invariant)

@[simp] theorem holds_none : invariant.Holds .none :=
  invariant.of_isHashable rfl

@[simp] theorem holds_bool (value : Bool) : invariant.Holds (.bool value) :=
  invariant.of_isHashable rfl

@[simp] theorem holds_int (value : Int64) : invariant.Holds (.int value) :=
  invariant.of_isHashable rfl

@[simp] theorem holds_float (value : Float) : invariant.Holds (.float value) :=
  invariant.of_isHashable rfl

@[simp] theorem holds_str (text : String) : invariant.Holds (.str text) :=
  invariant.of_isHashable rfl

@[simp] theorem holds_ofText (text : List Char) : invariant.Holds (.ofText text) :=
  invariant.holds_str _

@[simp] theorem holds_ofCount (count : Nat) : invariant.Holds (.ofCount count) :=
  invariant.holds_int _

@[simp] theorem holds_ofLiteral (literal : Expression.Literal) :
    invariant.Holds (.ofLiteral literal) := by
  cases literal <;> simp [ofLiteral]

end Parts

/-! ## Lists -/

section Lists

variable
  {invariant : Invariant}
  {items found : List Value}

/-- The items of a list are values as asked. -/
theorem of_mem
    (list : invariant.Holds (.list items)) :
    ∀ item ∈ items, invariant.Holds item :=
  (invariant.list_iff.mp list).2

/-- Evaluation may build a list that is not longer than its limit. -/
theorem list_of_length_le
    (short : items.length ≤ maxSequenceLength)
    (each : ∀ item ∈ items, invariant.Holds item) :
    invariant.Holds (.list items) :=
  invariant.list_iff.mpr ⟨invariant.allowed_of_le short invariant.allowed_max, each⟩

/-- A list may be as long as a list or dict that is there. -/
theorem list_of_allowed
    {length : Nat}
    (allowed : invariant.Allowed length)
    (shorter : items.length ≤ length)
    (each : ∀ item ∈ items, invariant.Holds item) :
    invariant.Holds (.list items) :=
  invariant.list_iff.mpr ⟨invariant.allowed_of_le shorter allowed, each⟩

/-- Some items of a list make up a list that is not longer. -/
theorem list_of_subset
    (list : invariant.Holds (.list items))
    (shorter : found.length ≤ items.length)
    (inside : ∀ item ∈ found, item ∈ items) :
    invariant.Holds (.list found) :=
  list_of_allowed (invariant.list_iff.mp list).1 shorter fun item among =>
    of_mem list item (inside item among)

/-- A pair is never too long. -/
theorem pair
    {first second : Value}
    (firstHolds : invariant.Holds first)
    (secondHolds : invariant.Holds second) :
    invariant.Holds (.list [first, second]) := by
  refine list_of_length_le (show 2 ≤ maxSequenceLength by decide) ?_
  rw [List.forall_mem_cons, List.forall_mem_singleton]
  exact ⟨firstHolds, secondHolds⟩

/-- What is found in a list at a place, or a value for no item. -/
theorem getD
    {default : Value}
    (each : ∀ item ∈ items, invariant.Holds item)
    (holds : invariant.Holds default)
    (place : Nat) :
    invariant.Holds (items[place]?.getD default) := by
  cases found : items[place]? with
  | none => exact holds
  | some item => exact each item (List.mem_of_getElem? found)

end Lists

end Invariant

/-- A length that passes the check is at most the limit. -/
theorem gives_checkLength (length : Nat) :
    Gives (fun _ => length ≤ maxSequenceLength) (checkLength length) := by
  unfold checkLength
  split
  · exact .error _
  · rename_i short
    exact .ok (Nat.not_lt.mp short)

/-- A count that stays at the greatest one passes the check only when it is not cut off. -/
theorem gives_checkLength_saturate (length : Nat) :
    Gives (fun _ => length ≤ maxSequenceLength) (checkLength (saturate length)) := by
  have below : maxSequenceLength < maxCount := by decide
  refine (gives_checkLength _).mono fun _ short => ?_
  unfold saturate at short
  omega

/-! ## Dicts -/

section Dicts

variable
  {key value : Value}
  {entries : List (Value × Value)}

/-- The key and the value of an entry behind an insertion are inserted ones or ones from before. -/
theorem of_mem_setEntry
    {entry : Value × Value}
    (among : entry ∈ setEntry key value entries) :
    (entry.1 = key ∨ ∃ other ∈ entries, entry.1 = other.1) ∧
      (entry.2 = value ∨ ∃ other ∈ entries, entry.2 = other.2) := by
  induction entries with
  | nil =>
      obtain rfl := List.mem_singleton.mp among
      exact ⟨.inl rfl, .inl rfl⟩
  | cons first entries inductionHypothesis =>
      rw [setEntry] at among
      split at among
      · rcases List.mem_cons.mp among with rfl | later
        · exact ⟨.inr ⟨first, by simp, rfl⟩, .inl rfl⟩
        · exact ⟨.inr ⟨entry, by simp [later], rfl⟩, .inr ⟨entry, by simp [later], rfl⟩⟩
      · rcases List.mem_cons.mp among with rfl | later
        · exact ⟨.inr ⟨_, by simp, rfl⟩, .inr ⟨_, by simp, rfl⟩⟩
        · obtain ⟨fromKeys, fromValues⟩ := inductionHypothesis later
          exact ⟨fromKeys.imp_right fun ⟨other, isOther, same⟩ => ⟨other, by simp [isOther], same⟩,
            fromValues.imp_right fun ⟨other, isOther, same⟩ => ⟨other, by simp [isOther], same⟩⟩

/-- An insertion adds one entry at most. -/
theorem length_setEntry_le
    (key value : Value)
    (entries : List (Value × Value)) :
    (setEntry key value entries).length ≤ entries.length + 1 := by
  induction entries with
  | nil => simp [setEntry]
  | cons first entries inductionHypothesis =>
      rw [setEntry]
      split
      · simp
      · simpa using inductionHypothesis

/-- What a lookup finds is a value of the dict. -/
theorem exists_mem_of_lookup?
    (found : lookup? key entries = some value) :
    ∃ entry ∈ entries, entry.2 = value := by
  induction entries with
  | nil => contradiction
  | cons first entries inductionHypothesis =>
      rw [lookup?] at found
      split at found
      · exact ⟨first, by simp, Option.some.inj found⟩
      · obtain ⟨entry, among, same⟩ := inductionHypothesis found
        exact ⟨entry, by simp [among], same⟩

variable {invariant : Invariant}

/-- What an invariant asks of the entries of a dict, however many they are. -/
structure Invariant.Entries
    (invariant : Invariant)
    (entries : List (Value × Value)) : Prop where
  /-- The keys are as asked. -/
  keys : invariant.Keys entries
  /-- The keys and the values are such values. -/
  parts : ∀ entry ∈ entries, invariant.Holds entry.1 ∧ invariant.Holds entry.2

namespace Invariant

theorem Entries.nil : invariant.Entries [] :=
  ⟨invariant.keys_nil, by simp⟩

theorem entries_of_dict
    (dict : invariant.Holds (.dict entries)) :
    invariant.Entries entries :=
  have ⟨_, keys, parts⟩ := invariant.dict_iff.mp dict
  ⟨keys, parts⟩

/-- A dict may be as long as a list or dict that is there. -/
theorem Entries.dict
    {length : Nat}
    (has : invariant.Entries entries)
    (allowed : invariant.Allowed length)
    (shorter : entries.length ≤ length) :
    invariant.Holds (.dict entries) :=
  invariant.dict_iff.mpr ⟨invariant.allowed_of_le shorter allowed, has.keys, has.parts⟩

/-- What a lookup finds is a value as asked. -/
theorem of_lookup?
    (dict : invariant.Holds (.dict entries))
    (found : lookup? key entries = some value) :
    invariant.Holds value := by
  obtain ⟨entry, among, rfl⟩ := exists_mem_of_lookup? found
  exact ((entries_of_dict dict).parts entry among).2

/-- An insertion of a value as asked adds one entry at most. -/
theorem gives_insert
    (has : invariant.Entries entries)
    (holds : invariant.Holds value) :
    Gives (fun inserted => invariant.Entries inserted ∧ inserted.length ≤ entries.length + 1)
      (insert key value entries) := by
  unfold insert
  split
  · rename_i hashable
    refine .ok ⟨⟨invariant.keys_setEntry has.keys hashable, fun entry among => ⟨?_, ?_⟩⟩,
      length_setEntry_le key value entries⟩
    · rcases (of_mem_setEntry among).1 with same | ⟨other, isOther, same⟩
      · rw [same]
        exact invariant.of_isHashable hashable
      · rw [same]
        exact (has.parts other isOther).1
    · rcases (of_mem_setEntry among).2 with same | ⟨other, isOther, same⟩
      · rwa [same]
      · rw [same]
        exact (has.parts other isOther).2
  · exact .error _

/-- The keys, the values or the pairs of a dict make up a list. -/
theorem list_map
    {part : Value × Value → Value}
    (dict : invariant.Holds (.dict entries))
    (each : ∀ entry ∈ entries, invariant.Holds (part entry)) :
    invariant.Holds (.list (entries.map part)) :=
  list_of_allowed (invariant.dict_iff.mp dict).1 (by simp) (List.forall_mem_map.mpr each)

end Invariant

end Dicts

/-! ## Items and slices -/

/-- The items at some places of a list are items of it. -/
theorem mem_of_mem_itemsAt
    {Item : Type}
    {items : List Item}
    {places : List Nat}
    {found : Item}
    (among : found ∈ itemsAt items places) :
    found ∈ items := by
  unfold itemsAt at among
  obtain ⟨place, -, isFound⟩ := List.mem_filterMap.mp among
  rw [List.getElem?_toArray] at isFound
  exact List.mem_of_getElem? isFound

namespace Invariant

variable
  {invariant : Invariant}
  {collection value : Value}

/-- What an index finds is a value as asked. -/
theorem gives_item
    (holds : invariant.Holds collection)
    (index : Value) :
    Gives invariant.Holds (collection.item index) := by
  cases collection with
  | none | bool | int | float | function => exact .error _
  | str text => exact (Gives.any _).bind fun place _ => .ok (invariant.holds_ofText _)
  | list items =>
      exact (Gives.any _).bind fun place _ => .ok (getD (of_mem holds) invariant.holds_none place)
  | dict entries =>
      simp only [item]
      split
      · rename_i found
        exact .ok (of_lookup? holds found)
      · exact .error _

theorem gives_slice
    (holds : invariant.Holds collection)
    (start stop step : Option Int64) :
    Gives invariant.Holds (collection.slice start stop step) := by
  simp only [slice]
  split
  · exact .error _
  · cases collection with
    | none | bool | int | float | dict | function => exact .error _
    | str text => exact .ok (invariant.holds_ofText _)
    | list items =>
        exact .ok (list_of_subset holds (length_slice_le items start stop _)
          fun item among => mem_of_mem_itemsAt among)

/-- The items that are gone through make up a list. -/
theorem gives_items
    (holds : invariant.Holds value) :
    Gives (fun items => invariant.Holds (.list items)) value.items := by
  cases value with
  | none | bool | int | float | function => exact .error _
  | list items => exact .ok holds
  | str text =>
      refine (gives_checkLength _).bind fun _ short => .ok (list_of_length_le ?_ ?_)
      · rwa [List.length_map, String.length_toList]
      · rw [List.forall_mem_map]
        exact fun character _ => invariant.holds_ofText _
  | dict entries =>
      exact .ok (list_map holds fun entry among => ((entries_of_dict holds).parts entry among).1)

end Invariant

/-! ## Arithmetic -/

/-- The copies of a list have its items. -/
theorem mem_of_mem_copies
    {Item : Type}
    {items : List Item}
    {count : Nat}
    {found : Item}
    (among : found ∈ copies items count) :
    found ∈ items := by
  unfold copies at among
  split at among
  · contradiction
  · obtain ⟨copy, isCopy, inside⟩ := List.mem_flatten.mp among
    rwa [List.eq_of_mem_replicate isCopy] at inside

theorem length_copies
    {Item : Type}
    (items : List Item)
    (count : Nat) :
    (copies items count).length = items.length * count := by
  unfold copies
  split
  · rename_i empty
    simp [List.isEmpty_iff.mp empty]
  · simp [Nat.mul_comm]

namespace Invariant

variable
  {invariant : Invariant}
  {left right : Value}

@[simp] theorem gives_ofExact (value : Int) : Gives invariant.Holds (ofExact value) := by
  unfold ofExact
  split <;> simp

@[simp] theorem gives_unsupported (operator : String) (left right : Value) :
    Gives invariant.Holds (unsupported operator left right) :=
  .error _

/-- Lists are joined only if they are not too long together. -/
theorem gives_concatenate
    {lefts rights : List Value}
    (leftEach : ∀ item ∈ lefts, invariant.Holds item)
    (rightEach : ∀ item ∈ rights, invariant.Holds item) :
    Gives invariant.Holds (concatenate lefts rights) := by
  refine (gives_checkLength _).bind fun _ short => (Gives.any _).bind fun _ _ => .ok ?_
  refine list_of_length_le (by simpa using short) ?_
  rw [List.forall_mem_append]
  exact ⟨leftEach, rightEach⟩

theorem gives_add
    (leftHolds : invariant.Holds left)
    (rightHolds : invariant.Holds right) :
    Gives invariant.Holds (left.add right) := by
  unfold add
  split
  · simp
  · simp
  · split
    · exact (Gives.any _).bind fun _ _ => .ok (invariant.holds_str _)
    · exact gives_concatenate (of_mem leftHolds) (of_mem rightHolds)
    · simp

theorem gives_subtract (left right : Value) : Gives invariant.Holds (left.subtract right) := by
  unfold subtract
  split <;> simp

theorem gives_repeatString (text : String) (count : Int) :
    Gives invariant.Holds (repeatString text count) :=
  (Gives.any _).bind fun _ _ => .ok (invariant.holds_ofText _)

/-- A list is repeated only if it does not get too long. -/
theorem gives_repeatList
    {items : List Value}
    (each : ∀ item ∈ items, invariant.Holds item)
    (count : Int) :
    Gives invariant.Holds (repeatList items count) := by
  refine (gives_checkLength_saturate _).bind fun _ short => (Gives.any _).bind fun _ _ => .ok ?_
  refine list_of_length_le (by rwa [length_copies]) ?_
  exact fun item among => each item (mem_of_mem_copies among)

theorem gives_multiply
    (leftHolds : invariant.Holds left)
    (rightHolds : invariant.Holds right) :
    Gives invariant.Holds (left.multiply right) := by
  unfold multiply
  split
  · exact gives_repeatString _ _
  · exact gives_repeatString _ _
  · exact gives_repeatList (of_mem leftHolds) _
  · exact gives_repeatList (of_mem rightHolds) _
  · unfold multiplyNumbers
    split <;> simp

theorem gives_divide (left right : Value) : Gives invariant.Holds (left.divide right) := by
  unfold divide
  split
  · split <;> simp
  · simp

theorem gives_floorDivide (left right : Value) :
    Gives invariant.Holds (left.floorDivide right) := by
  unfold floorDivide
  split
  · split <;> simp
  · split <;> simp
  · simp

theorem gives_modulo (left right : Value) : Gives invariant.Holds (left.modulo right) := by
  unfold modulo
  split
  · split
    · simp
    · split <;> simp
  · split <;> simp
  · simp

theorem gives_power (left right : Value) : Gives invariant.Holds (left.power right) := by
  have ofFloats (base exponent : Float) : Gives invariant.Holds (floatPower base exponent) := by
    unfold floatPower
    split <;> simp
  unfold power
  split
  · split
    · exact ofFloats _ _
    · split <;> simp
  · exact ofFloats _ _
  · simp

theorem gives_negate (value : Value) : Gives invariant.Holds value.negate := by
  unfold negate
  split <;> simp

theorem gives_plus (value : Value) : Gives invariant.Holds value.plus := by
  unfold plus
  split <;> simp

end Invariant

end Value
end TemplatedMarkup
