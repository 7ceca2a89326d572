import TemplatedMarkup.Expression.Eval
import TemplatedMarkup.Program.LogicalLine
import TemplatedMarkup.Table

/-!
# Running programs

A program runs over bindings of its own in front of an outer context that it cannot change.  What
it binds is harvested into a copy of the context, or one binding is fetched.
-/

namespace TemplatedMarkup

/-- The values that names are bound to. -/
abbrev Context := Table Value

/-- A context as the scope of an expression. -/
def Context.scope (context : Context) : Scope :=
  context.get?

/-- A string bound to a name. -/
def Context.string? (context : Context) (name : String) : Option String :=
  match context.get? name with
  | some (.str text) => some text
  | _ => none

/-- Why a program gives no bindings. -/
inductive ProgramError where
  /-- The source is no program. -/
  | source (message : String)
  /-- A statement fails. -/
  | evaluation (message : String)
  /-- The program does not bind the name that is asked for. -/
  | unbound (name : String)
deriving DecidableEq

/-- The text of an error. -/
def ProgramError.message : ProgramError → String
  | .source message => s!"syntax error: {message}"
  | .evaluation message => message
  | .unbound name => s!"name '{name}' is not defined"

namespace Program

/-- The scope of a program: its own bindings, then those of the outer context. -/
def scope (outer own : Context) : Scope :=
  fun name => (own.get? name).or (outer.get? name)

/-- A parameter with the value of its default. -/
def evalParameter
    (scope : Scope)
    (parameter : String × Option Expression.Expr) :
    Except ProgramError (Parameter Value) :=
  match parameter.2 with
  | none => .ok ⟨parameter.1, none⟩
  | some default =>
      match default.eval scope with
      | .ok value => .ok ⟨parameter.1, some value⟩
      | .error cause => .error (.evaluation cause.message)

/-- Carry out a statement over the bindings made so far. -/
def runStatement
    (outer : Context)
    (origin : Origin)
    (own : Context) : Statement → Except ProgramError Context
  | .assign name value =>
      match value.eval (scope outer own) with
      | .ok value => .ok (own.set name value)
      | .error cause => .error (.evaluation s!"{name}: {cause.message}")
  | .define name parameters body => do
      let parameters ← parameters.mapM (evalParameter (scope outer own))
      return own.set name (.function ⟨origin, name, parameters, body⟩)

/-- Carry out statements, the first of which has the given position. -/
def runFrom
    (outer : Context)
    (run position : Nat)
    (own : Context) : List Statement → Except ProgramError Context
  | [] => .ok own
  | statement :: statements => do
      let own ← runStatement outer ⟨run, position⟩ own statement
      runFrom outer run (position + 1) own statements

/-- The bindings of a program over an outer context; `run` tells its functions from others. -/
def bindings (run : Nat) (source : String) (outer : Context) : Except ProgramError Context :=
  match parseProgram source with
  | .error cause => .error (.source cause.message)
  | .ok statements => runFrom outer run 0 .empty statements

/-- A context with the bindings of a program put over it. -/
def harvest (run : Nat) (source : String) (context : Context) :
    Except ProgramError Context := do
  return context.merge (← bindings run source context)

/-- The value that a program without outer context binds to a name. -/
def fetch (run : Nat) (source name : String) : Except ProgramError Value := do
  match (← bindings run source .empty).get? name with
  | some value => return value
  | none => .error (.unbound name)

end Program
end TemplatedMarkup
