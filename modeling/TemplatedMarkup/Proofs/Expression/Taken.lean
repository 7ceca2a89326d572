import TemplatedMarkup.Proofs.Expression.Grammar
import TemplatedMarkup.Proofs.Expression.Run

/-!
# What a token parser takes

`Takes` is a triple for token parsers: a run that succeeds takes tokens off the front that stand
in a relation to its value.  There is one rule for every builder, so that a parser is followed
through its own definition; the relation of a later parser speaks of the tokens that were taken
before it as well.
-/

namespace TemplatedMarkup
namespace Expression

open TokenParser

/-- Every successful run takes tokens off the front that are granted together with its value. -/
def Takes
    {Result : Type}
    (parser : TokenParser Result)
    (granted : List Token → Result → Prop) : Prop :=
  ∀ (input rest : List Token) (value : Result), parser.run input = .ok (value, rest) →
    ∃ taken, input = taken ++ rest ∧ granted taken value

namespace Takes

variable
  {First Result State : Type}
  {granted : List Token → Result → Prop}

/-- What is granted to a run over all tokens is granted to these tokens. -/
theorem of_runAll
    {parser : TokenParser Result}
    {leftOver : Option Token → SourceError}
    {tokens : List Token}
    {value : Result}
    (takes : Takes parser granted)
    (parsed : runAll parser leftOver tokens = .ok value) :
    granted tokens value := by
  unfold runAll at parsed
  split at parsed
  · contradiction
  · rename_i found run
    obtain rfl := Except.ok.inj parsed
    obtain ⟨taken, rfl, isGranted⟩ := takes _ _ _ run
    rwa [List.append_nil]
  · contradiction

theorem mono
    {parser : TokenParser Result}
    {other : List Token → Result → Prop}
    (takes : Takes parser granted)
    (includes : ∀ taken value, granted taken value → other taken value) :
    Takes parser other := by
  intro input rest value parsed
  obtain ⟨taken, split, isGranted⟩ := takes input rest value parsed
  exact ⟨taken, split, includes taken value isGranted⟩

theorem bind
    {first : TokenParser First}
    {second : First → TokenParser Result}
    {grantedFirst : List Token → First → Prop}
    (takes : Takes first grantedFirst)
    (continues : ∀ before value, grantedFirst before value →
      Takes (second value) fun taken result => granted (before ++ taken) result) :
    Takes (first >>= second) granted := by
  intro input rest result parsed
  rw [run_bind] at parsed
  cases run : first.run input with
  | error cause => simp [run] at parsed
  | ok found =>
      obtain ⟨value, remaining⟩ := found
      rw [run, resume_ok] at parsed
      obtain ⟨before, rfl, isFirst⟩ := takes _ _ _ run
      obtain ⟨taken, rfl, isGranted⟩ := continues before value isFirst _ _ _ parsed
      exact ⟨before ++ taken, (List.append_assoc ..).symm, isGranted⟩

theorem pure
    {value : Result}
    (holds : granted [] value) :
    Takes (Pure.pure value) granted := by
  intro input rest found parsed
  rw [run_pure] at parsed
  obtain ⟨rfl, rfl⟩ := Prod.mk.inj (Except.ok.inj parsed)
  exact ⟨[], rfl, holds⟩

theorem fail {cause : SourceError} : Takes (TokenParser.fail cause) granted := by
  intro input rest value parsed
  simp at parsed

theorem ite
    {condition : Prop}
    [Decidable condition]
    {first second : TokenParser Result}
    (takesFirst : condition → Takes first granted)
    (takesSecond : ¬ condition → Takes second granted) :
    Takes (if condition then first else second) granted := by
  split
  · exact takesFirst ‹_›
  · exact takesSecond ‹_›

theorem peek : Takes TokenParser.peek fun taken _ => taken = [] := by
  intro input rest value parsed
  rw [run_peek] at parsed
  obtain ⟨rfl, rfl⟩ := Prod.mk.inj (Except.ok.inj parsed)
  exact ⟨[], rfl, rfl⟩

theorem peekSecond : Takes TokenParser.peekSecond fun taken _ => taken = [] := by
  intro input rest value parsed
  rw [run_peekSecond] at parsed
  obtain ⟨rfl, rfl⟩ := Prod.mk.inj (Except.ok.inj parsed)
  exact ⟨[], rfl, rfl⟩

theorem next : Takes TokenParser.next fun taken found => taken = found.toList := by
  intro input rest value parsed
  rw [run_next] at parsed
  obtain ⟨rfl, rfl⟩ := Prod.mk.inj (Except.ok.inj parsed)
  exact ⟨input.head?.toList, by cases input <;> rfl, rfl⟩

/-- A symbol that may follow is taken on the one branch and not on the other. -/
theorem eat
    {kind : Symbol}
    {yes no : TokenParser Result}
    (takesYes : Takes yes fun taken value => granted (.symbol kind :: taken) value)
    (takesNo : Takes no granted) :
    Takes (TokenParser.eat kind >>= fun taken => if taken = true then yes else no) granted := by
  intro input rest value parsed
  rw [run_bind] at parsed
  by_cases follows : input.head? = some (.symbol kind)
  · obtain ⟨others, rfl⟩ := List.head?_eq_some_iff.mp follows
    rw [run_eat_self, resume_ok, if_pos rfl] at parsed
    obtain ⟨taken, rfl, isGranted⟩ := takesYes _ _ _ parsed
    exact ⟨.symbol kind :: taken, rfl, isGranted⟩
  · rw [run_eat_of_ne follows, resume_ok, if_neg (by simp)] at parsed
    exact takesNo _ _ _ parsed

theorem expect
    {kind : Symbol}
    {what : String} :
    Takes (TokenParser.expect kind what) fun taken _ => taken = [.symbol kind] :=
  eat (pure rfl) (peek.bind fun _ _ _ => fail)

theorem expectName {what : String} :
    Takes (TokenParser.expectName what) fun taken name => taken = [.name name] := by
  refine next.bind fun _ found => ?_
  rintro rfl
  match found with
  | some (.name text) => exact pure rfl
  | none | some (.int _) | some (.float _) | some (.str _) | some (.symbol _) => exact fail

/-- What every step keeps of the tokens taken so far and the state holds of the last state. -/
theorem repeatFrom
    {step : State → TokenParser (Option State)}
    {reached : List Token → State → Prop}
    (stepTakes : ∀ before state, reached before state →
      Takes (step state) fun taken following =>
        reached (before ++ taken) (following.getD state))
    {before : List Token}
    {state : State}
    (holds : reached before state) :
    Takes (TokenParser.repeatFrom step state) fun taken last => reached (before ++ taken) last := by
  intro input rest value parsed
  change repeatRun step state input = .ok (value, rest) at parsed
  fun_induction repeatRun step state input generalizing before with
  | case1 => contradiction
  | case2 state input remaining stepped =>
      obtain ⟨rfl, rfl⟩ := Prod.mk.inj (Except.ok.inj parsed)
      exact stepTakes _ _ holds _ _ _ stepped
  | case3 state input following remaining stepped shorter inductionHypothesis =>
      obtain ⟨taken, rfl, next⟩ := stepTakes _ _ holds _ _ _ stepped
      obtain ⟨others, rfl, last⟩ := inductionHypothesis next parsed
      rw [List.append_assoc] at last
      exact ⟨taken ++ others, (List.append_assoc ..).symm, last⟩
  | case4 state input following remaining stepped _ =>
      obtain ⟨rfl, rfl⟩ := Prod.mk.inj (Except.ok.inj parsed)
      exact stepTakes _ _ holds _ _ _ stepped

/-! ## Lists with commas -/

theorem listed_concat
    (trailing : Bool)
    (lists : List (List Token))
    (last : List Token) :
    listed trailing (lists ++ [last]) = listed true lists ++ listed trailing [last] := by
  induction lists with
  | nil => rfl
  | cons first lists inductionHypothesis =>
      cases lists with
      | nil => simp [listed]
      | cons second lists =>
          simp only [List.cons_append, listed] at inductionHypothesis ⊢
          simp [inductionHypothesis]

variable
  {Part : Type}
  {IsPart : Part → Prop}
  {tokens : Part → List Token}
  {value : Part → Result}

/-- The tokens of some parts, with commas between them, and the values of the parts. -/
def Listed
    (IsPart : Part → Prop)
    (tokens : Part → List Token)
    (value : Part → Result)
    (trailing : Bool)
    (taken : List Token)
    (values : List Result) : Prop :=
  ∃ parts : List Part, (∀ part ∈ parts, IsPart part) ∧
    taken = listed trailing (parts.map tokens) ∧ values = parts.map value

/-- A further part stands behind a comma. -/
theorem Listed.concat
    {before : List Token}
    {values : List Result}
    {part : Part}
    (earlier : Listed IsPart tokens value true before values)
    (isPart : IsPart part)
    (trailing : Bool) :
    Listed IsPart tokens value trailing (before ++ listed trailing [tokens part])
      (values ++ [value part]) := by
  obtain ⟨parts, areParts, rfl, rfl⟩ := earlier
  refine ⟨parts ++ [part], ?_, ?_, by simp⟩
  · simpa [or_imp, forall_and] using ⟨areParts, isPart⟩
  · rw [List.map_append, List.map_singleton, listed_concat]

/-- A comma is taken or not. -/
theorem eat_comma :
    Takes (TokenParser.eat .comma) fun taken found =>
      taken = if found then [.symbol .comma] else [] := by
  intro input rest found parsed
  refine @eat _ (fun taken found => taken = if found then [Token.symbol .comma] else []) .comma
    (Pure.pure true) (Pure.pure false) (pure rfl) (pure rfl) input rest found ?_
  rw [run_bind, parsed]
  cases found <;> rfl

/--
The tokens of the parts read so far; the state tells whether they are all, since no comma stands
behind the last of them.
-/
def ListedSoFar
    (IsPart : Part → Prop)
    (tokens : Part → List Token)
    (value : Part → Result)
    (taken : List Token)
    (state : List Result × Bool) : Prop :=
  Listed IsPart tokens value (!state.2) taken state.1.reverse

theorem separatedStep
    {item : TokenParser Result}
    {closing : Symbol}
    {before : List Token}
    {state : List Result × Bool}
    (takes : Takes item fun taken result =>
      ∃ part, IsPart part ∧ taken = tokens part ∧ result = value part)
    (earlier : ListedSoFar IsPart tokens value before state) :
    Takes (TokenParser.separatedStep item closing state) fun taken following =>
      ListedSoFar IsPart tokens value (before ++ taken) (following.getD state) := by
  refine peek.bind ?_
  rintro _ found rfl
  refine ite (fun _ => pure (by simpa using earlier)) fun continues => ?_
  have unfinished : state.2 = false := by
    by_contra finished
    simp [finished] at continues
  refine takes.bind ?_
  rintro _ _ ⟨part, isPart, rfl, rfl⟩
  refine eat_comma.bind ?_
  rintro _ comma rfl
  refine pure ?_
  have listed : Listed IsPart tokens value true before state.1.reverse := by
    simpa [ListedSoFar, unfinished] using earlier
  have longer := listed.concat isPart comma
  cases comma <;> simpa [ListedSoFar, Expression.listed] using longer

/-- Items with commas between them are taken; a last comma may stand behind them. -/
theorem separated
    {item : TokenParser Result}
    {closing : Symbol}
    (takes : Takes item fun taken result =>
      ∃ part, IsPart part ∧ taken = tokens part ∧ result = value part) :
    Takes (TokenParser.separated item closing) fun taken results =>
      ∃ trailing, Listed IsPart tokens value trailing taken results := by
  rw [separated_eq]
  have none : ListedSoFar IsPart tokens value [] ([], false) := ⟨[], by simp, rfl, rfl⟩
  refine (repeatFrom (fun _ _ earlier => separatedStep takes earlier) none).bind ?_
  intro before state all
  exact pure ⟨!state.2, by simpa [ListedSoFar] using all⟩

end Takes
end Expression
end TemplatedMarkup
