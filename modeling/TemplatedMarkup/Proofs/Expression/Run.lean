import TemplatedMarkup.Expression.TokenParser

/-!
# Runs of token parsers

How every builder of token parsers acts on a list of tokens.  A run is followed through the
equations of this module, so that no later proof opens a builder.

`limited` marks a run that needs a number of nesting levels: its result stands when they are
there, and it fails with `nestedTooDeeply` otherwise.  Runs that need levels one after the other
need the larger of the two numbers.
-/

namespace TemplatedMarkup
namespace Expression
namespace TokenParser

variable {First Second Result State : Type}

/-- Go on with the value of a run and the tokens behind it. -/
def resume
    (outcome : Except SourceError (First × List Token))
    (next : First → TokenParser Second) : Except SourceError (Second × List Token) :=
  match outcome with
  | .ok (value, rest) => (next value).run rest
  | .error cause => .error cause

@[simp] theorem resume_ok
    (value : First)
    (rest : List Token)
    (next : First → TokenParser Second) :
    resume (.ok (value, rest)) next = (next value).run rest := rfl

@[simp] theorem resume_error
    (cause : SourceError)
    (next : First → TokenParser Second) :
    resume (.error cause) next = .error cause := rfl

@[simp] theorem run_bind
    (first : TokenParser First)
    (next : First → TokenParser Second)
    (input : List Token) :
    (first >>= next).run input = resume (first.run input) next := rfl

@[simp] theorem run_pure
    (value : Result)
    (input : List Token) :
    (Pure.pure value : TokenParser Result).run input = .ok (value, input) := rfl

@[simp] theorem run_fail
    (cause : SourceError)
    (input : List Token) :
    (fail cause : TokenParser Result).run input = .error cause := rfl

@[simp] theorem run_ite
    (condition : Prop)
    [Decidable condition]
    (first second : TokenParser Result)
    (input : List Token) :
    (if condition then first else second).run input =
      if condition then first.run input else second.run input := by
  split <;> rfl

@[simp] theorem run_peek (input : List Token) :
    peek.run input = .ok (input.head?, input) := rfl

@[simp] theorem run_peekSecond (input : List Token) :
    peekSecond.run input = .ok (input.tail.head?, input) := rfl

@[simp] theorem run_next (input : List Token) :
    next.run input = .ok (input.head?, input.tail) := rfl

/-- A symbol that comes next is taken. -/
@[simp] theorem run_eat_self
    (kind : Symbol)
    (rest : List Token) :
    (eat kind).run (.symbol kind :: rest) = .ok (true, rest) := by
  simp [eat]

/-- Anything but the symbol stays in place. -/
theorem run_eat_of_ne
    {kind : Symbol}
    {input : List Token}
    (different : input.head? ≠ some (.symbol kind)) :
    (eat kind).run input = .ok (false, input) := by
  simp [eat, different]

/-- Another symbol stays in place. -/
@[simp] theorem run_eat_symbol_of_ne
    {kind other : Symbol}
    (different : other ≠ kind)
    (rest : List Token) :
    (eat kind).run (.symbol other :: rest) = .ok (false, .symbol other :: rest) :=
  run_eat_of_ne (by simpa using different)

/-- A name stays in place. -/
@[simp] theorem run_eat_name
    (kind : Symbol)
    (text : String)
    (rest : List Token) :
    (eat kind).run (.name text :: rest) = .ok (false, .name text :: rest) :=
  run_eat_of_ne (by simp)

/-- A needed symbol that comes next is taken. -/
@[simp] theorem run_expect_self
    (kind : Symbol)
    (what : String)
    (rest : List Token) :
    (expect kind what).run (.symbol kind :: rest) = .ok ((), rest) := by
  simp [expect]

/-- A needed name that comes next is taken. -/
@[simp] theorem run_expectName_name
    (what text : String)
    (rest : List Token) :
    (expectName what).run (.name text :: rest) = .ok (text, rest) := by
  simp [expectName]

/-- A repetition ends where its step gives no new state. -/
theorem run_repeatFrom_of_none
    {step : State → TokenParser (Option State)}
    {state : State}
    {input rest : List Token}
    (stepped : (step state).run input = .ok (none, rest)) :
    (repeatFrom step state).run input = .ok (state, rest) := by
  change repeatRun step state input = _
  rw [repeatRun, stepped]

/-- A repetition goes on from a new state when its step took a token. -/
theorem run_repeatFrom_of_some
    {step : State → TokenParser (Option State)}
    {state following : State}
    {input rest : List Token}
    (stepped : (step state).run input = .ok (some following, rest))
    (shorter : rest.length < input.length) :
    (repeatFrom step state).run input = (repeatFrom step following).run rest := by
  change repeatRun step state input = repeatRun step following rest
  rw [repeatRun, stepped]
  simp [shorter]

/-- A repetition fails where its step fails. -/
theorem run_repeatFrom_of_error
    {step : State → TokenParser (Option State)}
    {state : State}
    {input : List Token}
    {cause : SourceError}
    (stepped : (step state).run input = .error cause) :
    (repeatFrom step state).run input = .error cause := by
  change repeatRun step state input = _
  rw [repeatRun, stepped]

/-- One item and the comma behind it, unless the closing symbol or the end of the list is there. -/
def separatedStep
    (item : TokenParser Result)
    (closing : Symbol)
    (state : List Result × Bool) : TokenParser (Option (List Result × Bool)) := do
  if state.2 || (← peek) = some (.symbol closing) then
    return none
  else
    let value ← item
    return some (value :: state.1, !(← eat .comma))

theorem separated_eq
    (item : TokenParser Result)
    (closing : Symbol) :
    separated item closing =
      (repeatFrom (separatedStep item closing) ([], false) >>= fun state =>
        Pure.pure state.1.reverse) := rfl

/-! ## Runs that need nesting levels -/

/-- A result that stands when the levels it needs are there. -/
def limited
    (needed levels : Nat)
    (outcome : Except SourceError Result) : Except SourceError Result :=
  if needed ≤ levels then outcome else .error .nestedTooDeeply

@[simp] theorem limited_zero
    (levels : Nat)
    (outcome : Except SourceError Result) :
    limited 0 levels outcome = outcome := by
  simp [limited]

@[simp] theorem limited_succ_zero
    (needed : Nat)
    (outcome : Except SourceError Result) :
    limited (needed + 1) 0 outcome = .error .nestedTooDeeply := by
  simp [limited]

@[simp] theorem limited_succ_succ
    (needed levels : Nat)
    (outcome : Except SourceError Result) :
    limited (needed + 1) (levels + 1) outcome = limited needed levels outcome := by
  simp [limited]

/-- Needs that follow each other amount to the larger one. -/
@[simp] theorem limited_limited
    (first second levels : Nat)
    (outcome : Except SourceError Result) :
    limited first levels (limited second levels outcome) =
      limited (max first second) levels outcome := by
  unfold limited
  by_cases firstFits : first ≤ levels <;>
    by_cases secondFits : second ≤ levels <;>
    simp only [Nat.max_le, firstFits, secondFits, and_self, and_true, true_and, if_true, if_false]

@[simp] theorem resume_limited
    (needed levels : Nat)
    (outcome : Except SourceError (First × List Token))
    (next : First → TokenParser Second) :
    resume (limited needed levels outcome) next =
      limited needed levels (resume outcome next) := by
  unfold limited
  split <;> rfl

/-- A step that needs levels passes its need on to the repetition. -/
theorem run_repeatFrom_of_limited
    {step : State → TokenParser (Option State)}
    {state following : State}
    {input rest : List Token}
    {needed levels : Nat}
    (stepped : (step state).run input = limited needed levels (.ok (some following, rest)))
    (shorter : rest.length < input.length) :
    (repeatFrom step state).run input =
      limited needed levels ((repeatFrom step following).run rest) := by
  by_cases fits : needed ≤ levels
  · simp only [limited, fits, if_true] at stepped ⊢
    exact run_repeatFrom_of_some stepped shorter
  · simp only [limited, fits, if_false] at stepped ⊢
    exact run_repeatFrom_of_error stepped

/-- A result whose need is met stands. -/
theorem limited_of_le
    {needed levels : Nat}
    (fits : needed ≤ levels)
    (outcome : Except SourceError Result) :
    limited needed levels outcome = outcome :=
  if_pos fits

/-- A limited result is the result itself or the error of too deep a nesting. -/
theorem limited_eq_or
    (needed levels : Nat)
    (outcome : Except SourceError Result) :
    limited needed levels outcome = outcome ∨
      limited needed levels outcome = .error .nestedTooDeeply := by
  unfold limited
  split
  · exact .inl rfl
  · exact .inr rfl

end TokenParser
end Expression
end TemplatedMarkup
