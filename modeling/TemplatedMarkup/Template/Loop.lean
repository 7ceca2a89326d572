import TemplatedMarkup.Expression.Eval
import TemplatedMarkup.Program.Run
import TemplatedMarkup.Template.Error
import TemplatedMarkup.Template.Node

/-!
# Loops

The body of a loop sees the names that an item is unpacked into and the state of the loop.
-/

namespace TemplatedMarkup
namespace Template

/-- The name of the state of a loop in its body. -/
def loopName : String := "forloop"

/-- The state of a loop over some items at one of them, with the state of the loop around it. -/
def loopState (position length : Nat) (around : Value) : Value :=
  .dict [
    (.str "counter", .ofCount (position + 1)),
    (.str "counter0", .ofCount position),
    (.str "revcounter", .ofCount (length - position)),
    (.str "revcounter0", .ofCount (length - position - 1)),
    (.str "first", .bool (position = 0)),
    (.str "last", .bool (position + 1 = length)),
    (.str "parentloop", around)]

/-- The error of an item that does not fill the names of a loop. -/
def unpackFailure (expected found : Nat) : TemplateError :=
  .evaluation s!"Need {expected} values to unpack in for loop; got {found}."

/-- The names of a loop with the item, or with its parts when there are several names. -/
def unpack (targets : List String) (item : Value) :
    Except TemplateError (List (String × Value)) :=
  match targets, item with
  | [target], item => .ok [(target, item)]
  | targets, .list parts =>
      if parts.length = targets.length then .ok (targets.zip parts)
      else .error (unpackFailure targets.length parts.length)
  | targets, _ => .error (unpackFailure targets.length 1)

/-- A scope with bindings in front. -/
def extendScope (bindings : Context) (scope : Scope) : Scope :=
  fun name => (bindings.get? name).or (scope name)

/-- The scope of the body of a loop at an item. -/
def loopScope
    (targets : List String)
    (length : Nat)
    (scope : Scope)
    (item : Value)
    (position : Nat) : Except TemplateError Scope := do
  let bindings ← unpack targets item
  let around := (scope loopName).getD (.dict [])
  return extendScope
    ((Table.ofList bindings).set loopName (loopState position length around)) scope

/-- The items of a loop, in the order in which they are taken; the absent value has none. -/
def loopItems (sequence : Value) (reversed : Bool) : Except TemplateError (List Value) :=
  match sequence with
  | .none => .ok []
  | sequence =>
      match sequence.items with
      | .ok items => .ok (if reversed then items.reverse else items)
      | .error cause => .error (.evaluation cause.message)

end Template
end TemplatedMarkup
