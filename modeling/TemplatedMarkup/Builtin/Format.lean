import TemplatedMarkup.Decimal.Notation
import TemplatedMarkup.Value.Limit

/-!
# Positional formats

A format is a text with fields in braces.  An empty field takes the next argument, a numbered one
the argument with its number, and a doubled brace stands for a brace.
-/

namespace TemplatedMarkup
namespace Format

/-- The argument that a field takes, given how many empty fields came before. -/
def fieldPosition (automatic : Nat) (field : List Char) : Except EvalError Nat :=
  if field.isEmpty then .ok automatic
  else
    match (Decimal.readUnsigned? field).filter (· ≤ maxCount) with
    | some position => .ok position
    | none => .error (.unsupportedField (.ofList field))

/-- Write the argument of a field behind the output so far. -/
def writeField
    (arguments : List Value)
    (output : String)
    (position : Nat) : Except EvalError String :=
  match arguments[position]? with
  | none => .error (.fieldOutOfRange position)
  | some value => do
      checkStringSize (saturate (output.utf8ByteSize + value.display.utf8ByteSize))
      return output ++ value.display

/--
Write the rest of a format behind the output so far; `automatic` counts the empty fields that came
before.
-/
def write
    (arguments : List Value)
    (automatic : Nat)
    (output : String) : List Char → Except EvalError String
  | [] => .ok output
  | '{' :: '{' :: rest => write arguments automatic (output.push '{') rest
  | '}' :: '}' :: rest => write arguments automatic (output.push '}') rest
  | '}' :: _ => .error .closeBrace
  | '{' :: rest =>
      match _closing : rest.dropWhile (· != '}') with
      | [] => .error .openBrace
      | _ :: after =>
          let field := rest.takeWhile (· != '}')
          match fieldPosition automatic field with
          | .error cause => .error cause
          | .ok position =>
              match writeField arguments output position with
              | .error cause => .error cause
              | .ok output =>
                  write arguments (if field.isEmpty then automatic + 1 else automatic) output after
  | character :: rest => write arguments automatic (output.push character) rest
termination_by format => format.length
decreasing_by
  all_goals simp only [List.length_cons]
  all_goals first
    | omega
    | (have shorter := (List.dropWhile_sublist (l := rest) (· != '}')).length_le
       rw [_closing, List.length_cons] at shorter
       omega)

end Format

/-- The text of a format with the fields replaced by arguments. -/
def formatText (template : String) (arguments : List Value) : Except EvalError String :=
  Format.write arguments 0 "" template.toList

end TemplatedMarkup
