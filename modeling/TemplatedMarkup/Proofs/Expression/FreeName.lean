import TemplatedMarkup.Expression.Eval
import TemplatedMarkup.Proofs.Expression.ReadBack

/-!
# Free names

The names that an expression looks up in its scope.  Evaluation depends on the scope only at these
names, a renaming renames each of them, and reading an expression back adds at most the name that
an infinite constant is printed as.
-/

namespace TemplatedMarkup
namespace Expression
namespace Expr

mutual

/-- The names that an expression looks up, those of called functions included. -/
def names : Expr → List String
  | .literal _ => []
  | .variable name => [name]
  | .list items => itemsNames items
  | .dict entries => entriesNames entries
  | .unary _ operand => operand.names
  | .binary _ left right => left.names ++ right.names
  | .comparison first links => first.names ++ linksNames links
  | .conditional condition consequence alternative =>
      condition.names ++ consequence.names ++ alternative.names
  | .call name arguments => name :: itemsNames arguments
  | .method receiver _ arguments => receiver.names ++ itemsNames arguments
  | .index collection position => collection.names ++ position.names
  | .slice collection start stop step =>
      collection.names ++ boundNames start ++ boundNames stop ++ boundNames step

/-- The names that the expressions of a list look up. -/
def itemsNames : List Expr → List String
  | [] => []
  | item :: items => item.names ++ itemsNames items

/-- The names that keys and values look up. -/
def entriesNames : List (Expr × Expr) → List String
  | [] => []
  | (key, value) :: entries => key.names ++ value.names ++ entriesNames entries

/-- The names that the operands of a chain look up. -/
def linksNames : List (Comparison × Expr) → List String
  | [] => []
  | (_, operand) :: links => operand.names ++ linksNames links

/-- The names that a bound looks up; an absent one looks up none. -/
def boundNames : Option Expr → List String
  | none => []
  | some bound => bound.names

end

/-! ## Evaluation -/

section Evaluation

variable
  {left right : Scope}
  {run : Function → List Value → Except EvalError Value}

mutual

/-- Evaluation depends on the scope only at the free names. -/
theorem evalWith_congr
    (expression : Expr)
    (agree : ∀ name ∈ expression.names, left name = right name) :
    expression.evalWith left run = expression.evalWith right run := by
  cases expression with
  | literal value => rfl
  | «variable» name =>
      simp [evalWith, agree name (by simp [names])]
  | list items =>
      simp [evalWith, evalItems_congr items 2 agree]
  | dict entries =>
      simp [evalWith, evalEntries_congr entries 2 [] agree]
  | unary operator operand =>
      simp [evalWith, evalWith_congr operand agree]
  | binary operator first second =>
      simp only [names, List.forall_mem_append] at agree
      simp [evalWith, evalWith_congr first agree.1, evalWith_congr second agree.2]
  | comparison first links =>
      simp only [names, List.forall_mem_append] at agree
      simp [evalWith, evalWith_congr first agree.1,
        fun value => evalLinks_congr links value agree.2]
  | conditional condition consequence alternative =>
      simp only [names, List.forall_mem_append] at agree
      simp [evalWith, evalWith_congr condition agree.1.1,
        evalWith_congr consequence agree.1.2, evalWith_congr alternative agree.2]
  | call name arguments =>
      simp only [names, List.forall_mem_cons] at agree
      simp [evalWith, callNamed, agree.1, evalArguments_congr arguments agree.2]
  | method receiver name arguments =>
      simp only [names, List.forall_mem_append] at agree
      simp [evalWith, evalWith_congr receiver agree.1, evalArguments_congr arguments agree.2]
  | index collection position =>
      simp only [names, List.forall_mem_append] at agree
      simp [evalWith, evalWith_congr collection agree.1, evalWith_congr position agree.2]
  | slice collection start stop step =>
      simp only [names, List.forall_mem_append] at agree
      simp [evalWith, evalWith_congr collection agree.1.1.1, evalBound_congr start agree.1.1.2,
        evalBound_congr stop agree.1.2, evalBound_congr step agree.2]

theorem evalArguments_congr
    (arguments : List Expr)
    (agree : ∀ name ∈ itemsNames arguments, left name = right name) :
    evalArguments left run arguments = evalArguments right run arguments := by
  cases arguments with
  | nil => rfl
  | cons argument arguments =>
      simp only [itemsNames, List.forall_mem_append] at agree
      simp [evalArguments, evalWith_congr argument agree.1, evalArguments_congr arguments agree.2]

theorem evalItems_congr
    (items : List Expr)
    (size : Nat)
    (agree : ∀ name ∈ itemsNames items, left name = right name) :
    evalItems left run size items = evalItems right run size items := by
  cases items with
  | nil => rfl
  | cons item items =>
      simp only [itemsNames, List.forall_mem_append] at agree
      simp [evalItems, evalWith_congr item agree.1,
        fun size => evalItems_congr items size agree.2]

theorem evalEntries_congr
    (entries : List (Expr × Expr))
    (size : Nat)
    (inserted : List (Value × Value))
    (agree : ∀ name ∈ entriesNames entries, left name = right name) :
    evalEntries left run size inserted entries = evalEntries right run size inserted entries := by
  match entries with
  | [] => rfl
  | (key, value) :: entries =>
      simp only [entriesNames, List.forall_mem_append] at agree
      simp [evalEntries, evalWith_congr key agree.1.1, evalWith_congr value agree.1.2,
        fun size inserted => evalEntries_congr entries size inserted agree.2]

theorem evalLinks_congr
    (links : List (Comparison × Expr))
    (value : Value)
    (agree : ∀ name ∈ linksNames links, left name = right name) :
    evalLinks left run value links = evalLinks right run value links := by
  match links with
  | [] => rfl
  | (relation, operand) :: links =>
      simp only [linksNames, List.forall_mem_append] at agree
      simp [evalLinks, evalWith_congr operand agree.1,
        fun value => evalLinks_congr links value agree.2]

theorem evalBound_congr
    (bound : Option Expr)
    (agree : ∀ name ∈ boundNames bound, left name = right name) :
    evalBound left run bound = evalBound right run bound := by
  cases bound with
  | none => rfl
  | some present => simp [evalBound, evalWith_congr present agree]

end

end Evaluation

/-! ## Renaming -/

mutual

/-- A renaming renames every free name. -/
theorem names_rename
    (expression : Expr)
    (image : String → String) :
    (expression.rename image).names = expression.names.map image := by
  cases expression with
  | literal value => rfl
  | «variable» name => rfl
  | list items => exact itemsNames_rename items image
  | dict entries => exact entriesNames_rename entries image
  | unary operator operand => exact names_rename operand image
  | binary operator left right =>
      simp [rename, names, names_rename left image, names_rename right image]
  | comparison first links =>
      simp only [rename, names, names_rename first image, linksNames_rename links image,
        List.map_append]
  | conditional condition consequence alternative =>
      simp [rename, names, names_rename condition image, names_rename consequence image,
        names_rename alternative image]
  | call name arguments =>
      simp only [rename, names, itemsNames_rename arguments image, List.map_cons]
  | method receiver name arguments =>
      simp only [rename, names, names_rename receiver image, itemsNames_rename arguments image,
        List.map_append]
  | index collection position =>
      simp [rename, names, names_rename collection image, names_rename position image]
  | slice collection start stop step =>
      simp only [rename, names, names_rename collection image, boundNames_rename start image,
        boundNames_rename stop image, boundNames_rename step image, List.map_append]

theorem itemsNames_rename
    (items : List Expr)
    (image : String → String) :
    itemsNames (renameItems image items) = (itemsNames items).map image := by
  cases items with
  | nil => rfl
  | cons item items =>
      simp only [renameItems, itemsNames, names_rename item image,
        itemsNames_rename items image, List.map_append]

theorem entriesNames_rename
    (entries : List (Expr × Expr))
    (image : String → String) :
    entriesNames (renameEntries image entries) = (entriesNames entries).map image := by
  match entries with
  | [] => rfl
  | (key, value) :: entries =>
      simp only [renameEntries, entriesNames, names_rename key image, names_rename value image,
        entriesNames_rename entries image, List.map_append]

theorem linksNames_rename
    (links : List (Comparison × Expr))
    (image : String → String) :
    linksNames (renameLinks image links) = (linksNames links).map image := by
  match links with
  | [] => rfl
  | (relation, operand) :: links =>
      simp only [renameLinks, linksNames, names_rename operand image,
        linksNames_rename links image, List.map_append]

theorem boundNames_rename
    (bound : Option Expr)
    (image : String → String) :
    boundNames (renameBound image bound) = (boundNames bound).map image := by
  cases bound with
  | none => rfl
  | some present => exact names_rename present image

end

mutual

/-- A renaming matters only at the free names. -/
theorem rename_congr
    {left right : String → String}
    (expression : Expr)
    (agree : ∀ name ∈ expression.names, left name = right name) :
    expression.rename left = expression.rename right := by
  cases expression with
  | literal value => rfl
  | «variable» name =>
      simp [rename, agree name (by simp [names])]
  | list items =>
      simp only [rename, renameItems_congr items agree]
  | dict entries =>
      simp only [rename, renameEntries_congr entries agree]
  | unary operator operand =>
      simp only [rename, rename_congr operand agree]
  | binary operator first second =>
      simp only [names, List.forall_mem_append] at agree
      simp only [rename, rename_congr first agree.1, rename_congr second agree.2]
  | comparison first links =>
      simp only [names, List.forall_mem_append] at agree
      simp only [rename, rename_congr first agree.1, renameLinks_congr links agree.2]
  | conditional condition consequence alternative =>
      simp only [names, List.forall_mem_append] at agree
      simp only [rename, rename_congr condition agree.1.1, rename_congr consequence agree.1.2,
        rename_congr alternative agree.2]
  | call name arguments =>
      simp only [names, List.forall_mem_cons] at agree
      simp only [rename, agree.1, renameItems_congr arguments agree.2]
  | method receiver name arguments =>
      simp only [names, List.forall_mem_append] at agree
      simp only [rename, rename_congr receiver agree.1, renameItems_congr arguments agree.2]
  | index collection position =>
      simp only [names, List.forall_mem_append] at agree
      simp only [rename, rename_congr collection agree.1, rename_congr position agree.2]
  | slice collection start stop step =>
      simp only [names, List.forall_mem_append] at agree
      simp only [rename, rename_congr collection agree.1.1.1, renameBound_congr start agree.1.1.2,
        renameBound_congr stop agree.1.2, renameBound_congr step agree.2]

theorem renameItems_congr
    {left right : String → String}
    (items : List Expr)
    (agree : ∀ name ∈ itemsNames items, left name = right name) :
    renameItems left items = renameItems right items := by
  cases items with
  | nil => rfl
  | cons item items =>
      simp only [itemsNames, List.forall_mem_append] at agree
      simp only [renameItems, rename_congr item agree.1, renameItems_congr items agree.2]

theorem renameEntries_congr
    {left right : String → String}
    (entries : List (Expr × Expr))
    (agree : ∀ name ∈ entriesNames entries, left name = right name) :
    renameEntries left entries = renameEntries right entries := by
  match entries with
  | [] => rfl
  | (key, value) :: entries =>
      simp only [entriesNames, List.forall_mem_append] at agree
      simp only [renameEntries, rename_congr key agree.1.1, rename_congr value agree.1.2,
        renameEntries_congr entries agree.2]

theorem renameLinks_congr
    {left right : String → String}
    (links : List (Comparison × Expr))
    (agree : ∀ name ∈ linksNames links, left name = right name) :
    renameLinks left links = renameLinks right links := by
  match links with
  | [] => rfl
  | (relation, operand) :: links =>
      simp only [linksNames, List.forall_mem_append] at agree
      simp only [renameLinks, rename_congr operand agree.1, renameLinks_congr links agree.2]

theorem renameBound_congr
    {left right : String → String}
    (bound : Option Expr)
    (agree : ∀ name ∈ boundNames bound, left name = right name) :
    renameBound left bound = renameBound right bound := by
  cases bound with
  | none => rfl
  | some present => simp only [renameBound, rename_congr present agree]

end

/-! ## Reading back -/

section ReadBack

variable {name : String}

mutual

/-- Reading back keeps every name but the one that infinity is printed as. -/
theorem mem_names_readBack
    (finite : name ≠ "inf")
    (expression : Expr) :
    name ∈ expression.readBack.names ↔ name ∈ expression.names := by
  cases expression with
  | literal value =>
      cases value with
      | float value =>
          simp only [readBack, Literal.readBack]
          split
          · rfl
          · split
            · simp [names]
            · simp [names, finite]
      | _ => rfl
  | «variable» other => rfl
  | list items => exact mem_itemsNames_readBack finite items
  | dict entries => exact mem_entriesNames_readBack finite entries
  | unary operator operand => exact mem_names_readBack finite operand
  | binary operator left right =>
      simp only [readBack, names, List.mem_append, mem_names_readBack finite left,
        mem_names_readBack finite right]
  | comparison first links =>
      simp only [readBack, names, List.mem_append, mem_names_readBack finite first,
        mem_linksNames_readBack finite links]
  | conditional condition consequence alternative =>
      simp only [readBack, names, List.mem_append, mem_names_readBack finite condition,
        mem_names_readBack finite consequence, mem_names_readBack finite alternative]
  | call other arguments =>
      simp only [readBack, names, List.mem_cons, mem_itemsNames_readBack finite arguments]
  | method receiver other arguments =>
      simp only [readBack, names, List.mem_append, mem_names_readBack finite receiver,
        mem_itemsNames_readBack finite arguments]
  | index collection position =>
      simp only [readBack, names, List.mem_append, mem_names_readBack finite collection,
        mem_names_readBack finite position]
  | slice collection start stop step =>
      simp only [readBack, names, List.mem_append, mem_names_readBack finite collection,
        mem_boundNames_readBack finite start, mem_boundNames_readBack finite stop,
        mem_boundNames_readBack finite step]

theorem mem_itemsNames_readBack
    (finite : name ≠ "inf")
    (items : List Expr) :
    name ∈ itemsNames (readBackItems items) ↔ name ∈ itemsNames items := by
  cases items with
  | nil => rfl
  | cons item items =>
      simp only [readBackItems, itemsNames, List.mem_append, mem_names_readBack finite item,
        mem_itemsNames_readBack finite items]

theorem mem_entriesNames_readBack
    (finite : name ≠ "inf")
    (entries : List (Expr × Expr)) :
    name ∈ entriesNames (readBackEntries entries) ↔ name ∈ entriesNames entries := by
  match entries with
  | [] => rfl
  | (key, value) :: entries =>
      simp only [readBackEntries, entriesNames, List.mem_append, mem_names_readBack finite key,
        mem_names_readBack finite value, mem_entriesNames_readBack finite entries]

theorem mem_linksNames_readBack
    (finite : name ≠ "inf")
    (links : List (Comparison × Expr)) :
    name ∈ linksNames (readBackLinks links) ↔ name ∈ linksNames links := by
  match links with
  | [] => rfl
  | (relation, operand) :: links =>
      simp only [readBackLinks, linksNames, List.mem_append, mem_names_readBack finite operand,
        mem_linksNames_readBack finite links]

theorem mem_boundNames_readBack
    (finite : name ≠ "inf")
    (bound : Option Expr) :
    name ∈ boundNames (readBackBound bound) ↔ name ∈ boundNames bound := by
  cases bound with
  | none => rfl
  | some present => exact mem_names_readBack finite present

end

end ReadBack

/-! ## Writable expressions -/

theorem mem_itemsNames
    {name : String}
    {items : List Expr} :
    name ∈ itemsNames items ↔ ∃ item ∈ items, name ∈ item.names := by
  induction items with
  | nil => simp [itemsNames]
  | cons item items inductionHypothesis => simp [itemsNames, inductionHypothesis]

theorem mem_entriesNames
    {name : String}
    {entries : List (Expr × Expr)} :
    name ∈ entriesNames entries ↔
      ∃ entry ∈ entries, name ∈ entry.1.names ∨ name ∈ entry.2.names := by
  induction entries with
  | nil => simp [entriesNames]
  | cons entry entries inductionHypothesis =>
      simp [entriesNames, inductionHypothesis, or_assoc]

theorem mem_linksNames
    {name : String}
    {links : List (Comparison × Expr)} :
    name ∈ linksNames links ↔ ∃ link ∈ links, name ∈ link.2.names := by
  induction links with
  | nil => simp [linksNames]
  | cons link links inductionHypothesis => simp [linksNames, inductionHypothesis]

theorem mem_boundNames
    {name : String}
    {bound : Option Expr} :
    name ∈ boundNames bound ↔ ∃ present ∈ bound, name ∈ present.names := by
  cases bound with
  | none => simp [boundNames]
  | some present => simp [boundNames]

/-- The free names of a writable expression can be referred to. -/
theorem Writable.isOwnName_of_mem
    {expression : Expr}
    {name : String}
    (writable : expression.Writable)
    (free : name ∈ expression.names) :
    IsOwnName name := by
  induction writable with
  | literal => simp [names] at free
  | reference own =>
      rw [names, List.mem_singleton] at free
      rwa [free]
  | list _ inductionHypothesis =>
      obtain ⟨item, among, inside⟩ := mem_itemsNames.mp free
      exact inductionHypothesis item among inside
  | dict _ _ keys values =>
      obtain ⟨entry, among, inside | inside⟩ := mem_entriesNames.mp free
      · exact keys entry among inside
      · exact values entry among inside
  | unary _ operand => exact operand free
  | binary _ _ left right =>
      rcases List.mem_append.mp free with inside | inside
      · exact left inside
      · exact right inside
  | comparison _ _ _ first links =>
      rcases List.mem_append.mp free with inside | inside
      · exact first inside
      · obtain ⟨link, among, inside⟩ := mem_linksNames.mp inside
        exact links link among inside
  | conditional _ _ _ condition consequence alternative =>
      simp only [names, List.mem_append] at free
      rcases free with (inside | inside) | inside
      · exact condition inside
      · exact consequence inside
      · exact alternative inside
  | call own _ arguments =>
      rcases List.mem_cons.mp free with rfl | inside
      · exact own
      · obtain ⟨argument, among, inside⟩ := mem_itemsNames.mp inside
        exact arguments argument among inside
  | method _ _ _ receiver arguments =>
      rcases List.mem_append.mp free with inside | inside
      · exact receiver inside
      · obtain ⟨argument, among, inside⟩ := mem_itemsNames.mp inside
        exact arguments argument among inside
  | index _ _ collection position =>
      rcases List.mem_append.mp free with inside | inside
      · exact collection inside
      · exact position inside
  | slice _ _ _ _ collection start stop step =>
      simp only [names, List.mem_append, mem_boundNames] at free
      rcases free with ((inside | ⟨bound, among, inside⟩) | ⟨bound, among, inside⟩) |
        ⟨bound, among, inside⟩
      · exact collection inside
      · exact start bound among inside
      · exact stop bound among inside
      · exact step bound among inside

end Expr
end Expression
end TemplatedMarkup
