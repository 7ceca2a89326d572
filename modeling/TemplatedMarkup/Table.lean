/-!
# Tables of named entries

A table lists its entries in the order in which their names were first set.  Setting a name again
replaces its entry in place; an erased name that is set again comes last.
-/

namespace TemplatedMarkup

/-- Entries under names, in order of their first appearance. -/
structure Table (Entry : Type) where
  /-- The names and their entries. -/
  entries : List (String × Entry)

namespace Table

variable {Entry : Type}

/-- The table without entries. -/
def empty : Table Entry :=
  ⟨[]⟩

instance : Inhabited (Table Entry) := ⟨empty⟩

/-- The entry under a name. -/
def get? (table : Table Entry) (name : String) : Option Entry :=
  table.entries.lookup name

/-- Whether there is an entry under a name. -/
def contains (table : Table Entry) (name : String) : Bool :=
  (table.get? name).isSome

/-- Replace the entry under a name in a list, or add one at the end. -/
def setIn (name : String) (entry : Entry) : List (String × Entry) → List (String × Entry)
  | [] => [(name, entry)]
  | (otherName, otherEntry) :: entries =>
      if otherName = name then (name, entry) :: entries
      else (otherName, otherEntry) :: setIn name entry entries

/-- Put an entry under a name; a name that is there already keeps its place. -/
def set (table : Table Entry) (name : String) (entry : Entry) : Table Entry :=
  ⟨setIn name entry table.entries⟩

/-- Remove the entry under a name. -/
def erase (table : Table Entry) (name : String) : Table Entry :=
  ⟨table.entries.filter (·.1 ≠ name)⟩

/-- The names, in order of their first appearance. -/
def names (table : Table Entry) : List String :=
  table.entries.map (·.1)

/-- The names in ascending order of their characters. -/
def sortedNames (table : Table Entry) : List String :=
  table.names.mergeSort fun left right => !(right < left : Bool)

/-- How many entries there are. -/
def size (table : Table Entry) : Nat :=
  table.entries.length

/-- Whether there are no entries. -/
def isEmpty (table : Table Entry) : Bool :=
  table.entries.isEmpty

/-- Put all entries of another table into a table. -/
def merge (table other : Table Entry) : Table Entry :=
  other.entries.foldl (fun merged entry => merged.set entry.1 entry.2) table

/-- The table with the given entries, the last one under each name. -/
def ofList (entries : List (String × Entry)) : Table Entry :=
  empty.merge ⟨entries⟩

end Table
end TemplatedMarkup
