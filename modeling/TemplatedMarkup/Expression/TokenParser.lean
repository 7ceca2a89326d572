import TemplatedMarkup.Expression.Error

/-!
# Parsers over tokens

A parser takes a value off the front of a list of tokens and never makes the list longer.  That
invariant is part of the type, so that every loop built from parsers ends.
-/

namespace TemplatedMarkup
namespace Expression

/-- A parser of values of a type. -/
structure TokenParser (Result : Type) where
  /-- The value at the front of the tokens and the tokens behind it. -/
  run : List Token → Except SourceError (Result × List Token)
  /-- What is left is no longer than the input. -/
  shrinks : ∀ {input value rest}, run input = .ok (value, rest) → rest.length ≤ input.length

namespace TokenParser

variable {First Second Result State : Type}

/-- Take nothing and give a value. -/
def pure (value : Result) : TokenParser Result where
  run input := .ok (value, input)
  shrinks parsed := by
    simp only [Except.ok.injEq, Prod.mk.injEq] at parsed
    exact Nat.le_of_eq (congrArg List.length parsed.2.symm)

/-- Run a parser, then the one that its value selects. -/
def bind
    (first : TokenParser First)
    (second : First → TokenParser Second) : TokenParser Second where
  run input :=
    match first.run input with
    | .ok (value, rest) => (second value).run rest
    | .error cause => .error cause
  shrinks parsed := by
    split at parsed
    · rename_i firstParsed
      exact Nat.le_trans ((second _).shrinks parsed) (first.shrinks firstParsed)
    · contradiction

instance : Monad TokenParser where
  pure := pure
  bind := bind

/-- Refuse the input. -/
def fail (cause : SourceError) : TokenParser Result where
  run _ := .error cause
  shrinks parsed := by contradiction

/-- The next token, left in place. -/
def peek : TokenParser (Option Token) where
  run input := .ok (input.head?, input)
  shrinks parsed := by
    simp only [Except.ok.injEq, Prod.mk.injEq] at parsed
    exact Nat.le_of_eq (congrArg List.length parsed.2.symm)

/-- The token behind the next one, left in place. -/
def peekSecond : TokenParser (Option Token) where
  run input := .ok (input.tail.head?, input)
  shrinks parsed := by
    simp only [Except.ok.injEq, Prod.mk.injEq] at parsed
    exact Nat.le_of_eq (congrArg List.length parsed.2.symm)

/-- Take the next token, if there is one. -/
def next : TokenParser (Option Token) where
  run input := .ok (input.head?, input.tail)
  shrinks parsed := by
    simp only [Except.ok.injEq, Prod.mk.injEq] at parsed
    rw [← parsed.2, List.length_tail]
    exact Nat.sub_le _ _

/-- Take the next token if it is a given symbol, and tell whether it was. -/
def eat (kind : Symbol) : TokenParser Bool := do
  if (← peek) = some (.symbol kind) then
    let _ ← next
    return true
  else
    return false

/-- Take a given symbol; `what` names it in the error. -/
def expect
    (kind : Symbol)
    (what : String) : TokenParser Unit := do
  if ← eat kind then
    return ()
  else
    fail (.expected what (← peek))

/-- Take a name; `what` tells in the error what it is for. -/
def expectName (what : String) : TokenParser String := do
  match ← next with
  | some (.name text) => return text
  | found => fail (.expected what found)

/-- Whether all tokens are taken. -/
def atEnd : TokenParser Bool := do
  return (← peek).isNone

/-- Repeat a step from a state until it gives no new one.  A step that takes nothing is the last. -/
def repeatRun
    (step : State → TokenParser (Option State))
    (state : State)
    (input : List Token) : Except SourceError (State × List Token) :=
  match (step state).run input with
  | .error cause => .error cause
  | .ok (none, rest) => .ok (state, rest)
  | .ok (some state, rest) =>
      if rest.length < input.length then repeatRun step state rest else .ok (state, rest)
termination_by input.length

/-- Repeating a step takes tokens only off the front. -/
theorem length_repeatRun_le
    {step : State → TokenParser (Option State)}
    {state result : State}
    {input rest : List Token}
    (parsed : repeatRun step state input = .ok (result, rest)) :
    rest.length ≤ input.length := by
  fun_induction repeatRun step state input with
  | case1 => contradiction
  | case2 =>
      rename_i stepped
      simp only [Except.ok.injEq, Prod.mk.injEq] at parsed
      exact parsed.2 ▸ (step _).shrinks stepped
  | case3 =>
      rename_i shorter inductionHypothesis
      exact Nat.le_trans (inductionHypothesis parsed) (Nat.le_of_lt shorter)
  | case4 =>
      rename_i stepped _
      simp only [Except.ok.injEq, Prod.mk.injEq] at parsed
      exact parsed.2 ▸ (step _).shrinks stepped

/-- The last state that a repeated step reaches. -/
def repeatFrom
    (step : State → TokenParser (Option State))
    (state : State) : TokenParser State where
  run := repeatRun step state
  shrinks := length_repeatRun_le

/-- Items with commas between them, up to a closing symbol that is left in place. -/
def separated
    (item : TokenParser Result)
    (closing : Symbol) : TokenParser (List Result) := do
  let (items, _) ← repeatFrom (fun (items, finished) => do
    if finished || (← peek) = some (.symbol closing) then
      return none
    else
      let value ← item
      return some (value :: items, !(← eat .comma))) ([], false)
  return items.reverse

/-- Run a parser over a whole list of tokens; `leftOver` is the error when some are left. -/
def runAll
    (parser : TokenParser Result)
    (leftOver : Option Token → SourceError)
    (tokens : List Token) : Except SourceError Result :=
  match parser.run tokens with
  | .error cause => .error cause
  | .ok (value, []) => .ok value
  | .ok (_, token :: _) => .error (leftOver (some token))

end TokenParser
end Expression
end TemplatedMarkup
