import TemplatedMarkup.Builtin.Method
import TemplatedMarkup.Proofs.Sorting.Rearrangement
import TemplatedMarkup.Proofs.Value.Invariant

/-!
# Built-in functions keep invariants

A built-in function or a method keeps every invariant of evaluation.  Dicts are made by insertion,
one entry for a pair at most, and lists consist of items of the arguments, of new numbers and
strings, and of lists of those.  A list that does not take its length from an argument has its
length checked.
-/

namespace TemplatedMarkup

open Value Value.Invariant

/-! ## Functions -/

namespace Builtin

variable
  {invariant : Invariant}
  {value : Value}

theorem gives_textOf (render : Value → String) (value : Value) :
    Gives invariant.Holds (textOf render value) :=
  (Gives.any _).bind fun _ _ => (Gives.any _).bind fun _ _ => .ok (invariant.holds_str _)

theorem gives_integerOf (value : Value) : Gives invariant.Holds (integerOf value) := by
  unfold integerOf
  split
  · unfold integerOfText
    split <;> simp
  · split <;> simp
  · split <;> simp

theorem gives_floatOf (value : Value) : Gives invariant.Holds (floatOf value) := by
  unfold floatOf
  split
  · split <;> simp
  · simp
  · split <;> simp

/-- The insertion of pairs adds one entry for each at most. -/
theorem gives_insertPairs
    {pairs : List Value}
    (each : ∀ pair ∈ pairs, invariant.Holds pair)
    {entries : List (Value × Value)}
    (has : invariant.Entries entries) :
    Gives (fun inserted => invariant.Entries inserted ∧
        inserted.length ≤ entries.length + pairs.length)
      (pairs.foldlM insertPair entries) := by
  induction pairs generalizing entries with
  | nil => exact .ok ⟨has, Nat.le_refl _⟩
  | cons pair pairs inductionHypothesis =>
      rw [List.forall_mem_cons] at each
      have first : Gives (fun inserted => invariant.Entries inserted ∧
          inserted.length ≤ entries.length + 1) (insertPair entries pair) := by
        unfold insertPair
        split
        · exact gives_insert has (of_mem each.1 _ (by simp))
        · exact .error _
      rw [List.foldlM_cons]
      refine first.bind fun inserted ⟨stillHas, oneMore⟩ => ?_
      refine (inductionHypothesis each.2 stillHas).mono fun last ⟨lastHas, more⟩ => ⟨lastHas, ?_⟩
      rw [List.length_cons]
      omega

/-- The dict of pairs has no more entries than there are pairs. -/
theorem gives_dictOf
    (holds : invariant.Holds value) :
    Gives invariant.Holds (dictOf value) := by
  unfold dictOf
  split
  · exact .ok holds
  · refine (gives_items holds).bind fun pairs list => ?_
    refine (gives_insertPairs (of_mem list) .nil).bind fun entries ⟨has, few⟩ => .ok ?_
    exact has.dict (invariant.list_iff.mp list).1 (by simpa using few)

theorem gives_lengthOf (value : Value) : Gives invariant.Holds (lengthOf value) := by
  unfold lengthOf
  split <;> simp

/-- A range is a list of integers that is not too long. -/
theorem gives_rangeOf (start stop step : Int) :
    Gives invariant.Holds (rangeOf start stop step) := by
  unfold rangeOf
  split
  · simp
  · refine (gives_checkLength_saturate _).bind fun _ short => .ok ?_
    refine list_of_length_le (by simpa using short) ?_
    rw [List.forall_mem_map]
    exact fun number _ => invariant.holds_int _

theorem gives_rangeOfBounds (bounds : List Int) :
    Gives invariant.Holds (rangeOfBounds bounds) := by
  unfold rangeOfBounds
  split
  · exact gives_rangeOf _ _ _
  · exact gives_rangeOf _ _ _
  · exact gives_rangeOf _ _ _
  · exact .error _

/-- Items with their positions are pairs, as many as the items. -/
theorem holds_numbered
    {items : List Value}
    (list : invariant.Holds (.list items))
    (start : Int64) :
    invariant.Holds (numbered start items) := by
  refine list_of_allowed (invariant.list_iff.mp list).1 (by simp) fun entry isPair => ?_
  obtain ⟨position, bound, rfl⟩ := List.mem_mapIdx.mp isPair
  exact pair (invariant.holds_int _) (of_mem list _ (List.getElem_mem bound))

/-- The items at a position are some items of the sequences, one of each at most. -/
theorem holds_column
    {sequences : List (List Value)}
    (allowed : invariant.Allowed sequences.length)
    (each : ∀ sequence ∈ sequences, invariant.Holds (.list sequence))
    (position : Nat) :
    invariant.Holds (.list ((sequences.map List.toArray).filterMap (·[position]?))) := by
  have few := List.length_filterMap_le (·[position]?) (sequences.map List.toArray)
  refine list_of_allowed allowed (by simpa using few) fun item among => ?_
  obtain ⟨table, isTable, found⟩ := List.mem_filterMap.mp among
  obtain ⟨sequence, isSequence, rfl⟩ := List.mem_map.mp isTable
  rw [List.getElem?_toArray] at found
  exact of_mem (each sequence isSequence) item (List.mem_of_getElem? found)

/-- Items at equal positions are as many as the shortest sequence has. -/
theorem holds_zipped
    {sequences : List (List Value)}
    (allowed : invariant.Allowed sequences.length)
    (each : ∀ sequence ∈ sequences, invariant.Holds (.list sequence)) :
    invariant.Holds (zipped sequences) := by
  have enough : invariant.Allowed ((sequences.map List.length).min?.getD 0) := by
    cases shortest : (sequences.map List.length).min? with
    | none => exact invariant.allowed_of_le (Nat.zero_le _) allowed
    | some length =>
        obtain ⟨sequence, isSequence, rfl⟩ := List.mem_map.mp (List.min?_mem shortest)
        exact (invariant.list_iff.mp (each sequence isSequence)).1
  refine list_of_allowed enough (by simp) ?_
  rw [List.forall_mem_map]
  exact fun position _ => holds_column allowed each position

theorem gives_absoluteOf (value : Value) : Gives invariant.Holds (absoluteOf value) := by
  unfold absoluteOf
  split
  · simp
  · split <;> simp

/-- The chosen value is one of the values. -/
theorem gives_choose
    {values : List Value}
    (each : ∀ value ∈ values, invariant.Holds value)
    (function : String)
    (wanted : Ordering) :
    Gives invariant.Holds (choose function wanted values) := by
  unfold choose
  split
  · exact .error _
  · rename_i first others
    rw [List.forall_mem_cons] at each
    refine Gives.foldlM (fun value among best bestHolds => ?_) each.1
    refine (Gives.any _).bind fun order _ => .ok ?_
    split
    · exact each.2 value among
    · exact bestHolds

theorem gives_chooseFrom
    {arguments : List Value}
    (each : ∀ argument ∈ arguments, invariant.Holds argument)
    (function : String)
    (wanted : Ordering) :
    Gives invariant.Holds (chooseFrom function wanted arguments) := by
  unfold chooseFrom
  split
  · refine (gives_items (each _ (by simp))).bind fun values list => ?_
    exact gives_choose (of_mem list) function wanted
  · exact gives_choose each function wanted

theorem gives_roundWhole (value : Float) : Gives invariant.Holds (roundWhole value) := by
  unfold roundWhole
  split <;> simp

theorem gives_roundOf (value : Value) (places : Option Value) :
    Gives invariant.Holds (roundOf value places) := by
  simp only [roundOf]
  split
  · split
    · exact gives_roundWhole _
    · simp
  · split
    · simp
    · simp
    · split
      · exact gives_roundWhole _
      · simp

end Builtin

variable {invariant : Invariant}

theorem gives_requiredArgument
    {arguments : List Value}
    (each : ∀ argument ∈ arguments, invariant.Holds argument)
    (function : String)
    (position : Nat) :
    Gives invariant.Holds (requiredArgument function arguments position) := by
  unfold requiredArgument
  split
  · rename_i found
    exact .ok (each _ (List.mem_of_getElem? found))
  · exact .error _

/-- A sorted list is a rearrangement. -/
theorem Value.gives_perm_sort (values : List Value) :
    Gives (·.Perm values) (Value.sort values) :=
  (Gives.any _).bind fun _ _ => Sorting.gives_sort values

/-- A sorted list has the same items. -/
theorem Value.Invariant.gives_sort
    {values : List Value}
    (list : invariant.Holds (.list values)) :
    Gives (fun sorted => invariant.Holds (.list sorted)) (Value.sort values) := by
  refine (Value.gives_perm_sort values).mono fun sorted rearranged => ?_
  exact list_of_subset list rearranged.length_eq.le fun value among => rearranged.subset among

theorem Value.Invariant.list_reverse
    {items : List Value}
    (list : invariant.Holds (.list items)) :
    invariant.Holds (.list items.reverse) :=
  list_of_subset list (by simp) fun item among => List.mem_reverse.mp among

namespace Builtin

/-- A built-in function keeps an invariant when it allows as many arguments. -/
theorem gives_call
    {arguments : List Value}
    (list : invariant.Holds (.list arguments))
    (builtin : Builtin) :
    Gives invariant.Holds (builtin.call arguments) := by
  have each := of_mem list
  have needed (position : Nat) := gives_requiredArgument each builtin.name position
  have first : ∀ value ∈ arguments.head?, invariant.Holds value := fun value isFirst =>
    each value (List.mem_of_head? isFirst)
  -- What is left of a function of a sequence, once the items are known.
  have overItems {rest : List Value → Except EvalError Value}
      (finishes : ∀ items, invariant.Holds (.list items) → Gives invariant.Holds (rest items)) :
      Gives invariant.Holds (requiredArgument builtin.name arguments 0 >>= fun value =>
        value.items >>= rest) :=
    (needed 0).bind fun value isValue => (gives_items isValue).bind finishes
  unfold call
  cases builtin with
  | str => exact gives_textOf _ _
  | repr => exact (needed 0).bind fun value _ => gives_textOf _ _
  | bool => exact .ok (invariant.holds_bool _)
  | int =>
      simp only
      split
      · exact .ok (invariant.holds_int _)
      · exact gives_integerOf _
  | float =>
      simp only
      split
      · exact .ok (invariant.holds_float _)
      · exact gives_floatOf _
  | list =>
      simp only
      split
      · exact .ok (list_of_length_le (Nat.zero_le _) (by simp))
      · rename_i value isFirst
        exact (gives_items (first value isFirst)).bind fun items list => .ok list
  | dict =>
      simp only
      split
      · exact .ok (Entries.nil.dict invariant.allowed_max (Nat.zero_le _))
      · rename_i value isFirst
        exact gives_dictOf (first value isFirst)
  | len => exact (needed 0).bind fun value _ => gives_lengthOf _
  | range => exact (Gives.any _).bind fun bounds _ => gives_rangeOfBounds _
  | sorted =>
      refine overItems fun items list => ?_
      refine (gives_sort list).bind fun sorted list => .ok ?_
      split
      · exact list_reverse list
      · exact list
  | reversed => exact overItems fun items list => .ok (list_reverse list)
  | enumerate => exact overItems fun items list => .ok (holds_numbered list _)
  | zip =>
      have sequences : Gives (fun sequences => sequences.length = arguments.length ∧
          ∀ sequence ∈ sequences, invariant.Holds (.list sequence))
          (arguments.mapM Value.items) := fun sequences mapped =>
        ⟨length_of_mapM_eq_ok mapped,
          Gives.mapM (fun value among => gives_items (each value among)) sequences mapped⟩
      refine sequences.bind fun sequences ⟨asMany, each⟩ => .ok (holds_zipped ?_ each)
      rw [asMany]
      exact (invariant.list_iff.mp list).1
  | any =>
      exact (Gives.any _).bind fun _ _ => (Gives.any _).bind fun _ _ => .ok (invariant.holds_bool _)
  | all =>
      exact (Gives.any _).bind fun _ _ => (Gives.any _).bind fun _ _ => .ok (invariant.holds_bool _)
  | abs => exact (needed 0).bind fun value _ => gives_absoluteOf _
  | min => exact gives_chooseFrom each _ _
  | max => exact gives_chooseFrom each _ _
  | sum =>
      refine overItems fun items list => ?_
      have start : invariant.Holds (arguments[1]?.getD (.int 0)) :=
        getD each (invariant.holds_int 0) 1
      refine Gives.foldlM (fun item isItem total isTotal => ?_) start
      exact gives_add isTotal (of_mem list item isItem)
  | round => exact (needed 0).bind fun value _ => gives_roundOf _ _

end Builtin

/-! ## Methods -/

/-- Texts make up a list if they are not too many. -/
theorem Value.Invariant.holds_texts
    {texts : List (List Char)}
    (short : texts.length ≤ maxSequenceLength) :
    invariant.Holds (.list (texts.map .ofText)) :=
  list_of_length_le (by rwa [List.length_map])
    (List.forall_mem_map.mpr fun text _ => invariant.holds_ofText text)

namespace StringMethod

/-- The pieces between separators are as many as are checked. -/
theorem gives_splitAt (separator text : List Char) :
    Gives invariant.Holds (splitAt separator text) := by
  unfold splitAt
  split
  · exact .error _
  · rename_i nonempty
    refine (gives_checkLength_saturate _).bind fun _ short => .ok (holds_texts ?_)
    rw [Text.occurrences, if_neg nonempty] at short
    omega

/-- A method of strings gives a string, a number, a truth value or a list of strings. -/
theorem gives_call
    (method : StringMethod)
    (text : String)
    (arguments : List Value) :
    Gives invariant.Holds (method.call text arguments) := by
  -- What is left of a method that only has to get one more value.
  have onceGiven {Given : Type} {outcome : Except EvalError Given} {result : Given → Value}
      (holds : ∀ given, invariant.Holds (result given)) :
      Gives invariant.Holds (outcome >>= fun given => pure (result given)) :=
    (Gives.any outcome).bind fun given _ => .ok (holds given)
  unfold call
  cases method with
  | upper | lower | title | capitalize => exact .ok (invariant.holds_ofText _)
  | strip | lstrip | rstrip => exact onceGiven fun _ => invariant.holds_ofText _
  | isdigit | isalpha => exact .ok (invariant.holds_bool _)
  | replace =>
      refine (Gives.any _).bind fun pattern _ => (Gives.any _).bind fun replacement _ => ?_
      exact (Gives.any _).bind fun _ _ => .ok (invariant.holds_ofText _)
  | zfill =>
      refine (Gives.any _).bind fun width _ => (Gives.any _).bind fun _ _ => ?_
      exact .ok (invariant.holds_ofText _)
  | join =>
      refine (Gives.any _).bind fun value _ => (Gives.any _).bind fun items _ => ?_
      exact (Gives.any _).bind fun collected _ => .ok (invariant.holds_str _)
  | format => exact onceGiven fun _ => invariant.holds_str _
  | split =>
      simp only
      split
      · exact (gives_checkLength _).bind fun _ short => .ok (holds_texts short)
      · exact (gives_checkLength _).bind fun _ short => .ok (holds_texts short)
      · exact (Gives.any _).bind fun separator _ => gives_splitAt _ _
  | splitlines => exact (gives_checkLength _).bind fun _ short => .ok (holds_texts short)
  | startswith | endswith => exact onceGiven fun _ => invariant.holds_bool _
  | find => exact onceGiven fun _ => invariant.holds_int _
  | count => exact onceGiven fun _ => invariant.holds_ofCount _

end StringMethod

/-- A method of lists gives a number. -/
theorem gives_callListMethod
    (items : List Value)
    (name : String)
    (arguments : List Value) :
    Gives invariant.Holds (callListMethod items name arguments) := by
  simp only [callListMethod]
  split
  · refine (Gives.any _).bind fun needle _ => ?_
    split
    · exact .ok (invariant.holds_ofCount _)
    · exact .error _
  · exact (Gives.any _).bind fun needle _ => .ok (invariant.holds_ofCount _)
  · exact .error _

/-- A method of dicts gives keys and values of the dict, or the given default. -/
theorem gives_callDictMethod
    {entries : List (Value × Value)}
    {arguments : List Value}
    (dict : invariant.Holds (.dict entries))
    (each : ∀ argument ∈ arguments, invariant.Holds argument)
    (name : String) :
    Gives invariant.Holds (callDictMethod entries name arguments) := by
  have parts := (entries_of_dict dict).parts
  unfold callDictMethod
  split
  · refine (Gives.any _).bind fun key _ => .ok ?_
    cases found : lookup? key entries with
    | none => exact getD each invariant.holds_none 1
    | some value => exact of_lookup? dict found
  · exact .ok (list_map dict fun entry among => (parts entry among).1)
  · exact .ok (list_map dict fun entry among => (parts entry among).2)
  · exact .ok (list_map dict fun entry among => pair (parts entry among).1 (parts entry among).2)
  · exact .error _

/-- A method keeps an invariant. -/
theorem gives_callMethod
    {receiver : Value}
    {arguments : List Value}
    (holds : invariant.Holds receiver)
    (each : ∀ argument ∈ arguments, invariant.Holds argument)
    (name : String) :
    Gives invariant.Holds (callMethod receiver name arguments) := by
  unfold callMethod
  split
  · split
    · exact StringMethod.gives_call _ _ _
    · exact .error _
  · exact gives_callListMethod _ _ _
  · exact gives_callDictMethod holds each name
  · exact .error _

end TemplatedMarkup
