import TemplatedMarkup.Expression.Expr

/-!
# Values

The values that expressions evaluate to: constants, lists, dicts and functions whose body is one
expression.
-/

namespace TemplatedMarkup

/-- A parameter of a function, with the default for a missing argument. -/
structure Parameter (Default : Type) where
  /-- The name that the body reads. -/
  name : String
  /-- The value for a missing argument, if there is one. -/
  default : Option Default

/-- The definition that a function comes from: a run of a program and a statement in it. -/
structure Origin where
  /-- The number of the run. -/
  run : Nat
  /-- The position of the statement in the program. -/
  position : Nat
deriving DecidableEq, Repr

/-- A function: its name, its parameters and the expression it evaluates. -/
structure Closure (Default : Type) where
  /-- The definition that the function comes from; equal functions share it. -/
  origin : Origin
  /-- The name in messages. -/
  name : String
  /-- The parameters, in order. -/
  parameters : List (Parameter Default)
  /-- The expression that a call evaluates. -/
  body : Expression.Expr

/-- Values of expressions. -/
inductive Value where
  /-- The absent value. -/
  | none
  /-- A truth value. -/
  | bool (value : Bool)
  /-- An integer. -/
  | int (value : Int64)
  /-- A double. -/
  | float (value : Float)
  /-- A string. -/
  | str (text : String)
  /-- A list. -/
  | list (items : List Value)
  /-- A dict, as its keys and values in order of insertion. -/
  | dict (entries : List (Value × Value))
  /-- A function. -/
  | function (closure : Closure Value)

instance : Inhabited Value := ⟨.none⟩

/-- Functions over values. -/
abbrev Function := Closure Value

/-- The kinds of values that messages tell apart. -/
inductive Kind where
  | none
  | bool
  | int
  | float
  | str
  | list
  | dict
  | function
deriving DecidableEq, Repr

/-- The name of a kind. -/
def Kind.name : Kind → String
  | .none => "NoneType"
  | .bool => "bool"
  | .int => "int"
  | .float => "float"
  | .str => "str"
  | .list => "list"
  | .dict => "dict"
  | .function => "function"

/-- The numbers that arithmetic works on. -/
inductive Number where
  | int (value : Int64)
  | float (value : Float)

/-- A number as a double; an integer goes to the nearest one. -/
def Number.toFloat : Number → Float
  | .int value => value.toFloat
  | .float value => value

namespace Value

/-- The kind of a value. -/
def kind : Value → Kind
  | .none => .none
  | .bool _ => .bool
  | .int _ => .int
  | .float _ => .float
  | .str _ => .str
  | .list _ => .list
  | .dict _ => .dict
  | .function _ => .function

/-- The value of a constant. -/
def ofLiteral : Expression.Literal → Value
  | .none => .none
  | .bool value => .bool value
  | .int value => .int value
  | .float value => .float value
  | .str text => .str text

/-- A string value from its characters. -/
def ofText (text : List Char) : Value :=
  .str (.ofList text)

/-- An integer value from a count. -/
def ofCount (count : Nat) : Value :=
  .int (.ofNat count)

/-- Zero, the empty collections, the absent value and `False` count as false. -/
def truthy : Value → Bool
  | .none => false
  | .bool value => value
  | .int value => value != 0
  | .float value => value != 0.0
  | .str text => !text.isEmpty
  | .list items => !items.isEmpty
  | .dict entries => !entries.isEmpty
  | .function _ => true

/-- The number that a value is; a truth value counts as zero or one. -/
def number? : Value → Option Number
  | .bool value => some (.int (if value then 1 else 0))
  | .int value => some (.int value)
  | .float value => some (.float value)
  | _ => Option.none

/-- The integer that a value is; a truth value counts as zero or one. -/
def integer? : Value → Option Int64
  | .bool value => some (if value then 1 else 0)
  | .int value => some value
  | _ => Option.none

/-- The values that may be keys of a dict. -/
def isHashable : Value → Bool
  | .none | .bool _ | .int _ | .float _ | .str _ => true
  | _ => false

/-- A key and its value are together smaller than the list of entries they are in. -/
theorem sizeOf_entry_lt
    {entries : List (Value × Value)}
    {entry : Value × Value}
    (member : entry ∈ entries) :
    sizeOf entry.1 + sizeOf entry.2 < sizeOf entries := by
  have smaller := List.sizeOf_lt_of_mem member
  cases entry
  simp only [Prod.mk.sizeOf_spec] at smaller ⊢
  omega

end Value
end TemplatedMarkup
