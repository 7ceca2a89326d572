import TemplatedMarkup.Expression.Eval
import TemplatedMarkup.Proofs.Expression.Reparsing
import TemplatedMarkup.Proofs.Value.Footprint
import TemplatedMarkup.Proofs.Value.WellFormed

/-!
# Evaluating the literal of a value

The literal of a value made of constants, lists and dicts is an expression whose value is the
value itself, in every scope.  The literal is followed through the lexer, the grammar and the
evaluator at once: its text spells the tokens of a phrase, and the tree of the phrase evaluates to
the value, as long as no size limit is exceeded.
-/

namespace TemplatedMarkup

open Expression Text

/--
Values without doubles, functions and the least integer, with lists and dicts nested up to a depth
and no list longer than evaluation builds.
-/
inductive Value.IsData : Nat → Value → Prop where
  | none {depth : Nat} : IsData depth .none
  | bool {depth : Nat} (value : Bool) : IsData depth (.bool value)
  | int {depth : Nat} {value : Int64} : value ≠ Int64.minValue → IsData depth (.int value)
  | str {depth : Nat} (text : String) : IsData depth (.str text)
  | list {depth : Nat} {items : List Value} :
      items.length ≤ maxSequenceLength → (∀ item ∈ items, IsData depth item) →
      IsData (depth + 1) (.list items)
  | dict {depth : Nat} {entries : List (Value × Value)} :
      (∀ entry ∈ entries, IsData depth entry.1) → (∀ entry ∈ entries, IsData depth entry.2) →
      IsData (depth + 1) (.dict entries)

/-! ## Texts and tokens -/

/-- The text of a constant that reads back as itself spells its token. -/
theorem spells_literal
    {value : Literal}
    (writable : value.Writable)
    (exact : value.isExact = true) :
    Spells value.text [] [value.token] := by
  intro rest apart
  rw [lex_literal writable apart]
  simp only [inFront, List.forM_cons, List.forM_nil, Literal.check_of_isExact exact]
  rfl

/-- The opposite of an integer that is not the least one. -/
theorem toInt_neg_of_ne_minValue
    {value : Int64}
    (notLeast : value ≠ Int64.minValue) :
    (-value).toInt = -value.toInt := by
  have above : value.toInt ≠ Int64.minValue.toInt := fun same => notLeast (Int64.toInt_inj.mp same)
  have least : Int64.minValue.toInt = -9223372036854775808 := by decide
  have low := Int64.le_toInt value
  have high := Int64.toInt_le value
  have largest : Int64.maxValue.toInt = 9223372036854775807 := by decide
  rw [Int64.toInt_neg, Int.bmod_eq_of_le] <;> omega

/-- A negative integer spells a minus sign and its opposite. -/
theorem spells_negative
    {value : Int64}
    (negative : value.toInt < 0)
    (notLeast : value ≠ Int64.minValue) :
    Spells (Decimal.integerText value.toInt) [] [.symbol .minus, .int (-value)] := by
  intro rest apart
  have opposite := toInt_neg_of_ne_minValue notLeast
  have written : Decimal.integerText value.toInt =
      '-' :: Decimal.integerText (-value).toInt := by
    rw [opposite, Decimal.integerText, if_pos negative, Decimal.integerText, if_neg (by omega),
      Int.natAbs_neg]
  rw [written, List.cons_append, lex_single (by decide), lex_integer (by omega) apart,
    map_cons_eq_inFront, map_cons_eq_inFront, inFront_inFront]
  rfl

/-! ## Evaluation of displays -/

section Evaluation

variable
  {scope : Scope}
  {run : Function → List Value → Except EvalError Value}

/-- An expression evaluates to a value. -/
def Expression.Expr.EvaluatesTo
    (scope : Scope)
    (run : Function → List Value → Except EvalError Value)
    (expression : Expr)
    (value : Value) : Prop :=
  expression.evalWith scope run = .ok value

/-- The items of a list display are evaluated in order when the list is small enough. -/
theorem Expression.Expr.evalItems_eq_ok
    {parts : List (Value × Phrase)}
    (evaluates : ∀ part ∈ parts, part.2.tree.EvaluatesTo scope run part.1)
    {size : Nat}
    (small : size + (parts.map fun part => part.1.weight + 2).sum ≤ maxFootprint) :
    evalItems scope run size (parts.map fun part => part.2.tree) =
      .ok (parts.map Prod.fst) := by
  induction parts generalizing size with
  | nil => rfl
  | cons part parts inductionHypothesis =>
      rw [List.forall_mem_cons] at evaluates
      rw [List.map_cons, List.sum_cons] at small
      have footprint : part.1.footprint = part.1.weight := saturate_of_le (by omega)
      have total : saturate (size + part.1.weight) = size + part.1.weight :=
        saturate_of_le (by omega)
      have others := @inductionHypothesis evaluates.2 (size + part.1.weight) (by omega)
      rw [List.map_cons, evalItems, evaluates.1]
      simp only [bind, Except.bind, footprint, total]
      rw [checkFootprint_of_le (by omega)]
      simp only [others]
      rfl

/-- A key that equals none of the keys is put behind them. -/
theorem Value.setEntry_of_new
    {key value : Value}
    {entries : List (Value × Value)}
    (isNew : ∀ entry ∈ entries, entry.1.equal key = false) :
    setEntry key value entries = entries ++ [(key, value)] := by
  induction entries with
  | nil => rfl
  | cons entry entries inductionHypothesis =>
      rw [List.forall_mem_cons] at isNew
      rw [setEntry, isNew.1, inductionHypothesis isNew.2]
      rfl

/-- The entries of a dict display are inserted in order when their keys are distinct. -/
theorem Expression.Expr.evalEntries_eq_ok
    {parts : List ((Value × Value) × (Phrase × Phrase))}
    (keysEvaluate : ∀ part ∈ parts, part.2.1.tree.EvaluatesTo scope run part.1.1)
    (valuesEvaluate : ∀ part ∈ parts, part.2.2.tree.EvaluatesTo scope run part.1.2)
    {inserted : List (Value × Value)}
    (keys : Value.HasDistinctKeys (inserted ++ parts.map Prod.fst))
    {size : Nat}
    (small : size + (parts.map fun part => part.1.1.weight + part.1.2.weight + 4).sum ≤
      maxFootprint) :
    evalEntries scope run size inserted
        (parts.map fun part => (part.2.1.tree, part.2.2.tree)) =
      .ok (inserted ++ parts.map Prod.fst) := by
  induction parts generalizing size inserted with
  | nil => simp [evalEntries]
  | cons part parts inductionHypothesis =>
      rw [List.forall_mem_cons] at keysEvaluate valuesEvaluate
      rw [List.map_cons, List.sum_cons] at small
      have keyFootprint : part.1.1.footprint = part.1.1.weight := saturate_of_le (by omega)
      have valueFootprint : part.1.2.footprint = part.1.2.weight := saturate_of_le (by omega)
      have withKey : saturate (size + part.1.1.weight) = size + part.1.1.weight :=
        saturate_of_le (by omega)
      have withValue : saturate (size + part.1.1.weight + part.1.2.weight) =
          size + part.1.1.weight + part.1.2.weight := saturate_of_le (by omega)
      have hashable : part.1.1.isHashable = true := keys.hashable part.1 (by simp)
      have isNew : ∀ entry ∈ inserted, entry.1.equal part.1.1 = false := fun entry among =>
        (List.pairwise_append.mp keys.distinct).2.2 entry among part.1 (by simp)
      have others := @inductionHypothesis keysEvaluate.2 valuesEvaluate.2 (inserted ++ [part.1])
        (by simpa using keys) (size + part.1.1.weight + part.1.2.weight) (by omega)
      rw [List.map_cons, evalEntries, keysEvaluate.1]
      simp only [bind, Except.bind]
      rw [valuesEvaluate.1]
      simp only [keyFootprint, valueFootprint, withKey, withValue]
      rw [checkFootprint_of_le (by omega), Value.insert, if_pos hashable,
        Value.setEntry_of_new isNew]
      simp only [others]
      simp

end Evaluation

/-! ## Literals -/

/-- Parts that each have a counterpart can be listed with their counterparts. -/
theorem exists_pairs
    {Part Other : Type}
    {Related : Part → Other → Prop}
    {parts : List Part}
    (each : ∀ part ∈ parts, ∃ other, Related part other) :
    ∃ pairs : List (Part × Other), parts = pairs.map Prod.fst ∧
      ∀ pair ∈ pairs, Related pair.1 pair.2 := by
  induction parts with
  | nil => exact ⟨[], rfl, by simp⟩
  | cons part parts inductionHypothesis =>
      rw [List.forall_mem_cons] at each
      obtain ⟨other, related⟩ := each.1
      obtain ⟨pairs, rfl, areRelated⟩ := inductionHypothesis each.2
      exact ⟨(part, other) :: pairs, rfl, List.forall_mem_cons.mpr ⟨related, areRelated⟩⟩

/-- A phrase that the literal of a value is read as. -/
structure Value.WrittenAs
    (depth : Nat)
    (value : Value)
    (phrase : Phrase) : Prop where
  /-- The phrase is a whole expression. -/
  derives : Derives .expression phrase
  /-- The literal spells its tokens. -/
  spells : Spells value.literalText [] phrase.tokens
  /-- It opens a level for itself, one for each list or dict, and one for a sign. -/
  levels_le : phrase.levels ≤ depth + 2
  /-- Its tree evaluates to the value, if that is well formed and small enough. -/
  evaluates : value.WellFormed → value.weight ≤ maxFootprint →
    ∀ scope run, phrase.tree.EvaluatesTo scope run value

namespace Value

theorem writtenAs_literal
    {literal : Literal}
    (writable : literal.Writable)
    (exact : literal.isExact = true)
    (depth : Nat) :
    WrittenAs depth (.ofLiteral literal) ⟨[literal.token], .literal literal, 1⟩ where
  derives := by
    have derives := Expr.derives_wholePhrase (Expr.derives_literal literal)
    rwa [Expr.wholePhrase, Expr.phrase, Expr.readBack, Literal.readBack_of_isExact exact]
      at derives
  spells := by
    have spells := spells_literal writable exact
    cases literal <;> simpa only [ofLiteral, literalText] using spells
  levels_le := show 1 ≤ depth + 2 by omega
  evaluates _ _ _ _ := rfl

theorem writtenAs_negative
    {value : Int64}
    (negative : value.toInt < 0)
    (notLeast : value ≠ Int64.minValue)
    (depth : Nat) :
    WrittenAs depth (.int value)
      ⟨[.symbol .minus, .int (-value)], .unary .negate (.literal (.int (-value))), 2⟩ where
  derives := by
    have opposite : Derives .atom ⟨[.int (-value)], .literal (.int (-value)), 0⟩ :=
      .constant rfl
    have signed := Derives.sign (show UnaryOperator.negate ≠ .not by decide)
      (opposite.loosen (by decide) (by decide))
    exact .whole (signed.loosen (by decide) (by decide))
  spells := by
    rw [literalText]
    exact spells_negative negative notLeast
  levels_le := show 2 ≤ depth + 2 by omega
  evaluates _ _ scope run := by
    have fits : fitsInt64 value.toInt = true := by
      have low := Int64.le_toInt value
      have high := Int64.toInt_le value
      simpa [fitsInt64] using ⟨low, high⟩
    change UnaryOperator.negate.apply (.int (-value)) = _
    simp only [UnaryOperator.apply, negate, number?, toInt_neg_of_ne_minValue notLeast,
      Int.neg_neg, ofExact, fits]
    simp

theorem writtenAs_list
    {depth : Nat}
    {parts : List (Value × Phrase)}
    (short : (parts.map Prod.fst).length ≤ maxSequenceLength)
    (written : ∀ part ∈ parts, WrittenAs depth part.1 part.2) :
    ∃ phrase, WrittenAs (depth + 1) (.list (parts.map Prod.fst)) phrase := by
  have display := @Derives.list (parts.map Prod.snd) false
    (List.forall_mem_map.mpr fun part among => (written part among).derives)
  refine ⟨_, .whole (display.loosen (by decide) (by decide)), ?_, ?_, ?_⟩
  · have inside := spells_intercalate fun part among => (written part among).spells
    have spells := inside.bracketed (show '[' ∈ singleCharacters by decide)
      (show ']' ∈ singleCharacters by decide)
    have constants : parts.flatMap (fun _ => ([] : List Literal)) = [] := by simp
    simpa [literalText, singleSymbol, Function.comp_def, constants] using spells
  · have deep : deepest ((parts.map Prod.snd).map Phrase.levels) ≤ depth + 2 := by
      rw [deepest_le_iff, List.map_map, List.forall_mem_map]
      exact fun part among => (written part among).levels_le
    exact Nat.succ_le_succ deep
  · intro wellFormed small scope run
    have evaluates : ∀ part ∈ parts, part.2.tree.EvaluatesTo scope run part.1 := by
      intro part among
      have isItem : part.1 ∈ parts.map Prod.fst := List.mem_map_of_mem among
      exact (written part among).evaluates (wellFormed_list_iff.mp wellFormed part.1 isItem)
        (Nat.le_trans (weight_item_le isItem) small) scope run
    have accepted : checkLength parts.length = .ok () :=
      if_neg (Nat.not_lt.mpr (by simpa using short))
    rw [weight_list, List.map_map] at small
    simp only [Expr.EvaluatesTo, Expr.evalWith, List.map_map, List.length_map, accepted,
      Function.comp_def, Expr.evalItems_eq_ok evaluates small]
    rfl

theorem writtenAs_dict
    {depth : Nat}
    {parts : List ((Value × Value) × (Phrase × Phrase))}
    (keysWritten : ∀ part ∈ parts, WrittenAs depth part.1.1 part.2.1)
    (valuesWritten : ∀ part ∈ parts, WrittenAs depth part.1.2 part.2.2) :
    ∃ phrase, WrittenAs (depth + 1) (.dict (parts.map Prod.fst)) phrase := by
  have display := @Derives.dict (parts.map Prod.snd) false
    (List.forall_mem_map.mpr fun part among => (keysWritten part among).derives)
    (List.forall_mem_map.mpr fun part among => (valuesWritten part among).derives)
  refine ⟨_, .whole (display.loosen (by decide) (by decide)), ?_, ?_, ?_⟩
  · have entrySpells := fun part among =>
      (keysWritten part among).spells.entry (valuesWritten part among).spells
    have spells := (spells_intercalate entrySpells).bracketed
      (show '{' ∈ singleCharacters by decide) (show '}' ∈ singleCharacters by decide)
    have constants : parts.flatMap (fun _ => ([] : List Literal)) = [] := by simp
    simpa [literalText, singleSymbol, Function.comp_def, constants, Phrase.entryTokens] using spells
  · have deep : deepest ((parts.map Prod.snd).map fun entry =>
        max entry.1.levels entry.2.levels) ≤ depth + 2 := by
      rw [deepest_le_iff, List.map_map, List.forall_mem_map]
      exact fun part among => Nat.max_le.mpr
        ⟨(keysWritten part among).levels_le, (valuesWritten part among).levels_le⟩
    exact Nat.succ_le_succ deep
  · intro wellFormed small scope run
    obtain ⟨keys, values⟩ := wellFormed_dict_iff.mp wellFormed
    have keysEvaluate : ∀ part ∈ parts, part.2.1.tree.EvaluatesTo scope run part.1.1 := by
      intro part among
      have isEntry : part.1 ∈ parts.map Prod.fst := List.mem_map_of_mem among
      have light := weight_entry_le isEntry
      exact (keysWritten part among).evaluates (wellFormed.keys_of_dict part.1 isEntry)
        (by omega) scope run
    have valuesEvaluate : ∀ part ∈ parts, part.2.2.tree.EvaluatesTo scope run part.1.2 := by
      intro part among
      have isEntry : part.1 ∈ parts.map Prod.fst := List.mem_map_of_mem among
      have light := weight_entry_le isEntry
      exact (valuesWritten part among).evaluates (values part.1 isEntry) (by omega) scope run
    rw [weight_dict, List.map_map] at small
    have evaluated := @Expr.evalEntries_eq_ok scope run parts keysEvaluate valuesEvaluate []
      keys 2 small
    simp only [Expr.EvaluatesTo, Expr.evalWith, List.map_map, Function.comp_def, evaluated]
    rfl

/-- The literal of every value without doubles and functions is read as some phrase. -/
theorem IsData.exists_writtenAs
    {depth : Nat}
    {value : Value}
    (isData : IsData depth value) :
    ∃ phrase, WrittenAs depth value phrase := by
  induction isData with
  | none => exact ⟨_, @writtenAs_literal .none trivial rfl _⟩
  | bool value => exact ⟨_, @writtenAs_literal (.bool value) trivial rfl _⟩
  | str text => exact ⟨_, @writtenAs_literal (.str text) trivial rfl _⟩
  | @int depth value notLeast =>
      rcases Int.lt_or_le value.toInt 0 with negative | nonnegative
      · exact ⟨_, writtenAs_negative negative notLeast depth⟩
      · exact ⟨_, @writtenAs_literal (.int value) nonnegative rfl depth⟩
  | list short _ items =>
      obtain ⟨parts, rfl, written⟩ := exists_pairs items
      exact writtenAs_list short written
  | @dict depth entries _ _ keys values =>
      have each : ∀ entry ∈ entries, ∃ phrases : Phrase × Phrase,
          WrittenAs depth entry.1 phrases.1 ∧ WrittenAs depth entry.2 phrases.2 := by
        intro entry among
        obtain ⟨key, keyWritten⟩ := keys entry among
        obtain ⟨value, valueWritten⟩ := values entry among
        exact ⟨(key, value), keyWritten, valueWritten⟩
      obtain ⟨parts, rfl, written⟩ := exists_pairs each
      exact writtenAs_dict (fun part among => (written part among).1)
        fun part among => (written part among).2

/--
The literal of a value evaluates back to the value, in every scope.  The value is made of absent
values, truth values, integers other than the least one, strings, lists and dicts, nested at most
62 lists and dicts deep; its dicts have distinct hashable keys, its lists are not too long, and
its footprint does not exceed the limit.
-/
theorem eval_literal
    {value : Value}
    (isData : value.IsData 62)
    (wellFormed : value.WellFormed)
    (small : value.footprint ≤ maxFootprint) :
    ∃ expression, Expression.parse value.literal = .ok expression ∧
      ∀ scope, expression.eval scope = .ok value := by
  obtain ⟨phrase, written⟩ := isData.exists_writtenAs
  have lexed : lex value.literalText = .ok phrase.tokens := by
    simpa using written.spells [] startsApart_nil
  have parsed := written.derives.parseTokens_eq.trans
    (TokenParser.limited_of_le written.levels_le _)
  refine ⟨phrase.tree, ?_, fun scope =>
    written.evaluates wellFormed (weight_le_of_footprint_le small) scope _⟩
  rw [parse, tokenize, literal, String.toList_ofList, lexed]
  exact parsed

/-- A negative integer, a quoted apostrophe and a line break inside a list and a dict. -/
theorem eval_literal_nested :
    let value := list [int (-7), dict [(str "it's", list []), (bool true, str "\n")], none]
    value.IsData 62 ∧ value.WellFormed ∧ value.footprint ≤ maxFootprint ∧
      ∃ expression, Expression.parse value.literal = .ok expression ∧
        ∀ scope, expression.eval scope = .ok value := by
  intro value
  have isData : value.IsData 62 := by
    refine .list (by decide) ?_
    simp only [List.forall_mem_cons]
    refine ⟨.int (by decide), .dict ?_ ?_, .none, by simp⟩
    · simp only [List.forall_mem_cons]
      exact ⟨.str _, .bool _, by simp⟩
    · simp only [List.forall_mem_cons]
      exact ⟨.list (by decide) (by simp), .str _, by simp⟩
  have keys : HasDistinctKeys [(str "it's", list []), (bool true, str "\n")] :=
    ⟨by simp [isHashable], by simp [equal, number?]⟩
  have wellFormed : value.WellFormed := by
    simp [value, wellFormed_dict_iff, keys]
  have small : value.footprint ≤ maxFootprint := by
    simp only [value, footprint, weight_list, weight_dict, weight, List.map, List.sum_cons]
    decide
  exact ⟨isData, wellFormed, small, eval_literal isData wellFormed small⟩

end Value

end TemplatedMarkup
