import TemplatedMarkup.Proofs.Expression.FreeName

/-!
# Evaluating renamed expressions

A renamed expression means in a scope what the expression means in the scope seen through the
renaming.  An error may quote another name only where a value that is no function is called.  So
the parameters of a function can be renamed together with its body, also when they swap names,
as long as the new names stand for nothing else in the body.
-/

namespace TemplatedMarkup

/-- Errors that are the same, or quote a called name and its image. -/
inductive EvalError.Renamed (image : String → String) : EvalError → EvalError → Prop
  | same (cause : EvalError) : Renamed image cause cause
  | callee (name : String) : Renamed image (.notCallable name) (.notCallable (image name))

/-- Outcomes with the same value, or with errors that differ in a called name at most. -/
inductive SameOutcome {Result : Type} (image : String → String) :
    Except EvalError Result → Except EvalError Result → Prop
  | ok (value : Result) : SameOutcome image (.ok value) (.ok value)
  | error {cause other : EvalError} :
      cause.Renamed image other → SameOutcome image (.error cause) (.error other)

namespace SameOutcome

variable
  {First Result : Type}
  {image : String → String}

theorem refl (outcome : Except EvalError Result) : SameOutcome image outcome outcome := by
  cases outcome with
  | ok value => exact .ok value
  | error cause => exact .error (.same cause)

/-- What is done with the same values has the same outcome. -/
theorem bind
    {left right : Except EvalError First}
    {continueLeft continueRight : First → Except EvalError Result}
    (first : SameOutcome image left right)
    (second : ∀ value, SameOutcome image (continueLeft value) (continueRight value)) :
    SameOutcome image (left >>= continueLeft) (right >>= continueRight) := by
  cases first with
  | ok value => exact second value
  | error renamed => exact .error renamed

/-- Of two such outcomes, one is a value exactly when the other is that value. -/
theorem eq_ok_iff
    {left right : Except EvalError Result}
    (same : SameOutcome image left right)
    (value : Result) :
    right = .ok value ↔ left = .ok value := by
  cases same with
  | ok other => exact Iff.rfl
  | error renamed => simp

/-- When one outcome is an error, the other is an error that differs in a called name at most. -/
theorem exists_of_eq_error
    {left right : Except EvalError Result}
    {cause : EvalError}
    (same : SameOutcome image left right)
    (failed : left = .error cause) :
    ∃ other, right = .error other ∧ cause.Renamed image other := by
  cases same with
  | ok value => contradiction
  | error renamed =>
      obtain rfl := Except.error.inj failed
      exact ⟨_, rfl, renamed⟩

end SameOutcome

namespace Expression
namespace Expr

section Evaluation

variable
  {image : String → String}
  {scope : Scope}
  {run : Function → List Value → Except EvalError Value}

/-- A name that the renaming changes is bound under its new name. -/
def Follows (image : String → String) (scope : Scope) (name : String) : Prop :=
  scope (image name) = none → image name = name

/-- Calling a name through a renaming is calling its image. -/
theorem callNamed_image
    {name : String}
    (follows : Follows image scope name)
    (arguments : List Value) :
    SameOutcome image (callNamed (fun name => scope (image name)) run name arguments)
      (callNamed scope run (image name) arguments) := by
  simp only [callNamed]
  cases bound : scope (image name) with
  | none =>
      rw [follows bound]
      exact .refl _
  | some value =>
      cases value with
      | function closure => exact .refl _
      | _ => exact .error (.callee name)

mutual

/-- A renamed expression means what the expression means in the scope seen through the renaming. -/
theorem evalWith_rename
    (expression : Expr)
    (follows : ∀ name ∈ expression.names, Follows image scope name) :
    SameOutcome image (expression.evalWith (fun name => scope (image name)) run)
      ((expression.rename image).evalWith scope run) := by
  cases expression with
  | literal value => exact .refl _
  | «variable» name =>
      simp only [rename, evalWith]
      cases bound : scope (image name) with
      | none =>
          rw [follows name (by simp [names]) bound]
          exact .refl _
      | some value => exact .refl _
  | list items =>
      simp only [rename, evalWith, renameItems_eq_map, List.length_map]
      refine (SameOutcome.refl _).bind fun _ => ?_
      rw [← renameItems_eq_map]
      exact (evalItems_rename items 2 follows).bind fun _ => .refl _
  | dict entries =>
      simp only [rename, evalWith]
      exact (evalEntries_rename entries 2 [] follows).bind fun _ => .refl _
  | unary operator operand =>
      simp only [rename, evalWith]
      exact (evalWith_rename operand follows).bind fun _ => .refl _
  | binary operator left right =>
      simp only [names, List.forall_mem_append] at follows
      simp only [rename, evalWith]
      refine (evalWith_rename left follows.1).bind fun value => ?_
      split
      · exact .refl _
      · exact (evalWith_rename right follows.2).bind fun _ => .refl _
  | comparison first links =>
      simp only [names, List.forall_mem_append] at follows
      simp only [rename, evalWith]
      refine (evalWith_rename first follows.1).bind fun value => ?_
      exact (evalLinks_rename links value follows.2).bind fun _ => .refl _
  | conditional condition consequence alternative =>
      simp only [names, List.forall_mem_append] at follows
      simp only [rename, evalWith]
      refine (evalWith_rename condition follows.1.1).bind fun value => ?_
      split
      · exact evalWith_rename consequence follows.1.2
      · exact evalWith_rename alternative follows.2
  | call name arguments =>
      simp only [names, List.forall_mem_cons] at follows
      simp only [rename, evalWith]
      exact (evalArguments_rename arguments follows.2).bind fun values =>
        callNamed_image follows.1 values
  | method receiver name arguments =>
      simp only [names, List.forall_mem_append] at follows
      simp only [rename, evalWith]
      refine (evalWith_rename receiver follows.1).bind fun value => ?_
      exact (evalArguments_rename arguments follows.2).bind fun _ => .refl _
  | index collection position =>
      simp only [names, List.forall_mem_append] at follows
      simp only [rename, evalWith]
      refine (evalWith_rename collection follows.1).bind fun value => ?_
      exact (evalWith_rename position follows.2).bind fun _ => .refl _
  | slice collection start stop step =>
      simp only [names, List.forall_mem_append] at follows
      simp only [rename, evalWith]
      refine (evalWith_rename collection follows.1.1.1).bind fun value => ?_
      refine (evalBound_rename start follows.1.1.2).bind fun _ => ?_
      refine (evalBound_rename stop follows.1.2).bind fun _ => ?_
      exact (evalBound_rename step follows.2).bind fun _ => .refl _

theorem evalArguments_rename
    (arguments : List Expr)
    (follows : ∀ name ∈ itemsNames arguments, Follows image scope name) :
    SameOutcome image (evalArguments (fun name => scope (image name)) run arguments)
      (evalArguments scope run (renameItems image arguments)) := by
  cases arguments with
  | nil => exact .refl _
  | cons argument arguments =>
      simp only [itemsNames, List.forall_mem_append] at follows
      simp only [renameItems, evalArguments]
      refine (evalWith_rename argument follows.1).bind fun value => ?_
      exact (evalArguments_rename arguments follows.2).bind fun _ => .refl _

theorem evalItems_rename
    (items : List Expr)
    (size : Nat)
    (follows : ∀ name ∈ itemsNames items, Follows image scope name) :
    SameOutcome image (evalItems (fun name => scope (image name)) run size items)
      (evalItems scope run size (renameItems image items)) := by
  cases items with
  | nil => exact .refl _
  | cons item items =>
      simp only [itemsNames, List.forall_mem_append] at follows
      simp only [renameItems, evalItems]
      refine (evalWith_rename item follows.1).bind fun value => ?_
      refine (SameOutcome.refl _).bind fun _ => ?_
      exact (evalItems_rename items _ follows.2).bind fun _ => .refl _

theorem evalEntries_rename
    (entries : List (Expr × Expr))
    (size : Nat)
    (inserted : List (Value × Value))
    (follows : ∀ name ∈ entriesNames entries, Follows image scope name) :
    SameOutcome image (evalEntries (fun name => scope (image name)) run size inserted entries)
      (evalEntries scope run size inserted (renameEntries image entries)) := by
  match entries with
  | [] => exact .refl _
  | (key, value) :: entries =>
      simp only [entriesNames, List.forall_mem_append] at follows
      simp only [renameEntries, evalEntries]
      refine (evalWith_rename key follows.1.1).bind fun _ => ?_
      refine (evalWith_rename value follows.1.2).bind fun _ => ?_
      refine (SameOutcome.refl _).bind fun _ => ?_
      refine (SameOutcome.refl _).bind fun _ => ?_
      exact evalEntries_rename entries _ _ follows.2

theorem evalLinks_rename
    (links : List (Comparison × Expr))
    (value : Value)
    (follows : ∀ name ∈ linksNames links, Follows image scope name) :
    SameOutcome image (evalLinks (fun name => scope (image name)) run value links)
      (evalLinks scope run value (renameLinks image links)) := by
  match links with
  | [] => exact .refl _
  | (relation, operand) :: links =>
      simp only [linksNames, List.forall_mem_append] at follows
      simp only [renameLinks, evalLinks]
      refine (evalWith_rename operand follows.1).bind fun right => ?_
      refine (SameOutcome.refl _).bind fun holds => ?_
      split
      · exact evalLinks_rename links right follows.2
      · exact .refl _

theorem evalBound_rename
    (bound : Option Expr)
    (follows : ∀ name ∈ boundNames bound, Follows image scope name) :
    SameOutcome image (evalBound (fun name => scope (image name)) run bound)
      (evalBound scope run (renameBound image bound)) := by
  cases bound with
  | none => exact .refl _
  | some present =>
      simp only [renameBound, evalBound]
      exact (evalWith_rename present follows).bind fun _ => .refl _

end

end Evaluation

/-! ## Parameters -/

/-- Rename two parameters to the names of the value and the argument of a filter. -/
def parameterImage (first second name : String) : String :=
  if name = second then "b" else if name = first then "a" else name

/-- The scope of a body with two parameters. -/
def parameterScope (first second : String) (value argument : Value) : Scope :=
  fun name =>
    if name = second then some argument else if name = first then some value else none

/-- A function with two parameters evaluates its body in the scope of its arguments. -/
theorem frame_pair
    (function : String)
    (first second : Parameter Value)
    (value argument : Value) :
    Closure.frame function [first, second] [value, argument] =
      .ok (parameterScope first.name second.name value argument) := by
  simp only [Closure.frame, List.head?_cons, Option.some_or, List.tail_cons]
  change Except.ok _ = Except.ok _
  congr 1
  funext name
  by_cases isSecond : name = second.name
  · simp [parameterScope, isSecond]
  · simp [parameterScope, isSecond]

/-- Seen through the renaming of the parameters, the new scope is the old one. -/
theorem parameterScope_image
    {first second name : String}
    (distinct : first ≠ second)
    (fresh : name = "a" ∨ name = "b" → name = first ∨ name = second)
    (value argument : Value) :
    parameterScope "a" "b" value argument (parameterImage first second name) =
      parameterScope first second value argument name := by
  unfold parameterScope parameterImage
  by_cases isSecond : name = second
  · simp [isSecond]
  · by_cases isFirst : name = first
    · simp [isFirst, distinct]
    · have notNew : name ≠ "a" ∧ name ≠ "b" := by
        constructor
        · exact fun isValue => (fresh (.inl isValue)).elim isFirst isSecond
        · exact fun isArgument => (fresh (.inr isArgument)).elim isFirst isSecond
      simp [isSecond, isFirst, notNew.1, notNew.2]

/-- The renaming changes no name but the parameters, which are bound. -/
theorem follows_parameterImage
    (first second name : String)
    (value argument : Value) :
    Follows (parameterImage first second) (parameterScope "a" "b" value argument) name := by
  intro unbound
  unfold parameterScope parameterImage at unbound
  unfold parameterImage
  split
  · simp_all
  · split
    · simp_all
    · rfl

/--
Renaming the parameters of a body keeps its meaning.  When the new names stand for nothing but the
parameters, the renamed body has a value under the renamed parameters exactly when the body has
that value under its own, at any call depth; errors differ in the name of a called value at most.
-/
theorem evalWith_rename_parameters
    (expression : Expr)
    {first second : String}
    (distinct : first ≠ second)
    (fresh : ∀ name ∈ expression.names, name = "a" ∨ name = "b" → name = first ∨ name = second)
    (function : String)
    (defaults : Option Value × Option Value)
    (value argument : Value)
    (remaining : Nat) :
    ∃ declared compiled : Scope,
      Closure.frame function [⟨first, defaults.1⟩, ⟨second, defaults.2⟩] [value, argument] =
        .ok declared ∧
      Closure.frame function [⟨"a", defaults.1⟩, ⟨"b", defaults.2⟩] [value, argument] =
        .ok compiled ∧
      (∀ result,
        (expression.rename (parameterImage first second)).evalWith compiled
            (Closure.callWithin remaining) = .ok result ↔
          expression.evalWith declared (Closure.callWithin remaining) = .ok result) ∧
      ∀ cause, expression.evalWith declared (Closure.callWithin remaining) = .error cause →
        ∃ other,
          (expression.rename (parameterImage first second)).evalWith compiled
              (Closure.callWithin remaining) = .error other ∧
            cause.Renamed (parameterImage first second) other := by
  have through := @evalWith_rename (parameterImage first second)
    (parameterScope "a" "b" value argument) (Closure.callWithin remaining) expression
    fun name _ => follows_parameterImage first second name value argument
  rw [evalWith_congr expression fun name free =>
    parameterScope_image distinct (fresh name free) value argument] at through
  exact ⟨_, _, frame_pair _ _ _ _ _, frame_pair _ _ _ _ _, through.eq_ok_iff,
    fun cause failed => through.exists_of_eq_error failed⟩

/-- A body that calls one parameter with the other, whose names are swapped. -/
theorem evalWith_rename_parameters_swap :
    let expression : Expr := .binary .add (.call "b" [.variable "a"]) (.call "len" [.list []])
    let same : Value := .function ⟨⟨0, 0⟩, "same", [⟨"x", none⟩], .variable "x"⟩
    "b" ≠ "a" ∧
      (∀ name ∈ expression.names, name = "a" ∨ name = "b" → name = "b" ∨ name = "a") ∧
      ∃ declared compiled : Scope,
        Closure.frame "f" [⟨"b", none⟩, ⟨"a", none⟩] [same, .int 3] = .ok declared ∧
        Closure.frame "f" [⟨"a", none⟩, ⟨"b", none⟩] [same, .int 3] = .ok compiled ∧
        expression.evalWith declared (Closure.callWithin 31) = .ok (.int 3) ∧
        (expression.rename (parameterImage "b" "a")).evalWith compiled (Closure.callWithin 31) =
          .ok (.int 3) := by
  intro expression same
  have distinct : "b" ≠ "a" := by decide
  have fresh : ∀ name ∈ expression.names, name = "a" ∨ name = "b" → name = "b" ∨ name = "a" :=
    fun name _ => Or.symm
  obtain ⟨declared, compiled, isDeclared, isCompiled, alike, -⟩ :=
    evalWith_rename_parameters expression distinct fresh "f" ⟨none, none⟩ same (.int 3) 31
  have evaluated : expression.evalWith declared (Closure.callWithin 31) = .ok (.int 3) := by
    obtain rfl := Except.ok.inj ((frame_pair _ _ _ _ _).symm.trans isDeclared)
    rfl
  exact ⟨distinct, fresh, declared, compiled, isDeclared, isCompiled, evaluated,
    (alike (.int 3)).mpr evaluated⟩

end Expr
end Expression
end TemplatedMarkup
