import TemplatedMarkup.Proofs.Document.Declaration

/-!
# Kinds of declared values

Strict mode compares the declared kinds with the values that the names have in the end.  A value
that a later declaration of its name replaces is not looked at, and the kind of the replaced
declaration is compared with the value that has replaced it.
-/

namespace TemplatedMarkup
namespace Document

open Expression

/-- Declarations that are evaluated one after the other, with their values. -/
inductive Evaluates : Context → List (Declaration × Value) → Context → Prop where
  | nil (context : Context) : Evaluates context [] context
  | cons
      {context result : Context}
      {declaration : Declaration}
      {expression : Expr}
      {value : Value}
      {produced : List (Declaration × Value)}
      (parsed : parse declaration.source = .ok expression)
      (evaluated : expression.eval context.scope = .ok value)
      (others : Evaluates (context.set declaration.name value) produced result) :
      Evaluates context ((declaration, value) :: produced) result

/-- The value of the last declaration of a name. -/
def lastValue? (name : String) : List (Declaration × Value) → Option Value
  | [] => none
  | (declaration, value) :: produced =>
      (lastValue? name produced).or (if declaration.name = name then some value else none)

section Kinds

variable
  {context result : Context}
  {produced : List (Declaration × Value)}

/-- In the end a name has the value of its last declaration. -/
theorem Evaluates.get?_eq
    (evaluates : Evaluates context produced result)
    (name : String) :
    result.get? name = (lastValue? name produced).or (context.get? name) := by
  induction evaluates with
  | nil context => rfl
  | @cons context result declaration expression value produced _ _ _ inductionHypothesis =>
      rw [inductionHypothesis, lastValue?, Table.get?_set, Option.or_assoc]
      congr 1
      by_cases same : name = declaration.name
      · simp [same]
      · simp [same, Ne.symm same]

/-- A declared name has a last value. -/
theorem exists_lastValue
    {entry : Declaration × Value}
    (among : entry ∈ produced) :
    ∃ value, lastValue? entry.1.name produced = some value := by
  induction produced with
  | nil => contradiction
  | cons first produced inductionHypothesis =>
      rw [lastValue?]
      rcases List.mem_cons.mp among with rfl | later
      · cases lastValue? entry.1.name produced <;> simp
      · obtain ⟨value, isLast⟩ := inductionHypothesis later
        exact ⟨value, by rw [isLast, Option.some_or]⟩

/-- A kind is accepted when the name has no value of another kind. -/
theorem checkKind_eq_ok_iff
    {declaration : Declaration} :
    checkKind result declaration = .ok () ↔
      ∀ value ∈ result.get? declaration.name, value.kind = declaration.kind.kind := by
  unfold checkKind
  cases result.get? declaration.name with
  | none => simp
  | some value => by_cases same : value.kind = declaration.kind.kind <;> simp [same]

/-- Strict mode checks the kinds of the declared names in the context that lenient mode gives. -/
theorem infer_strict_eq
    {block : String}
    {found : List Declaration}
    (read : declarations block true = .ok found)
    (inferred : infer block context false = .ok result) :
    infer block context true = (found.forM (checkKind result)).map fun _ => result := by
  have lenient := (readDeclarations_of_strict false
    (fun line => Text.not_mem_of_mem_lineLists) read).1
  have readLeniently : declarations block false = .ok found := lenient
  simp only [infer, readLeniently, read, bind, Except.bind] at inferred ⊢
  split
  · rename_i nothing
    rw [if_pos nothing] at inferred
    obtain rfl := List.isEmpty_iff.mp nothing
    obtain rfl := Except.ok.inj inferred
    rfl
  · rename_i something
    rw [if_neg something] at inferred
    split at inferred
    · cases inferred
    · rename_i harvested
      obtain rfl := Except.ok.inj inferred
      simp only [if_true]
      cases found.forM (checkKind _) <;> rfl

/--
Strict inference succeeds exactly when the last value of every declared name has the kinds of all
its declarations.  This is to say that every declaration has a value of its own kind, provided that
values of one name have one kind.
-/
theorem infer_strict_iff
    {block : String}
    (read : declarations block true = .ok (produced.map (·.1)))
    (evaluates : Evaluates context produced result)
    (inferred : infer block context false = .ok result) :
    ((∃ after, infer block context true = .ok after) ↔
        ∀ entry ∈ produced, ∃ value, lastValue? entry.1.name produced = some value ∧
          value.kind = entry.1.kind.kind) ∧
      ((∀ entry ∈ produced, ∀ value ∈ lastValue? entry.1.name produced,
          value.kind = entry.2.kind) →
        ((∃ after, infer block context true = .ok after) ↔
          ∀ entry ∈ produced, entry.2.kind = entry.1.kind.kind)) := by
  have accepts : (∃ after, infer block context true = .ok after) ↔
      ∀ entry ∈ produced, ∃ value, lastValue? entry.1.name produced = some value ∧
        value.kind = entry.1.kind.kind := by
    have passes : (∃ after, infer block context true = .ok after) ↔
        (produced.map (·.1)).forM (checkKind result) = .ok () := by
      rw [infer_strict_eq read inferred]
      cases (produced.map (·.1)).forM (checkKind result) <;> simp [Except.map]
    rw [passes, forM_eq_ok_iff, List.forall_mem_map]
    refine forall₂_congr fun entry among => ?_
    obtain ⟨value, isLast⟩ := exists_lastValue among
    simp [checkKind_eq_ok_iff, evaluates.get?_eq, isLast]
  refine ⟨accepts, fun sameKinds => accepts.trans (forall₂_congr fun entry among => ?_)⟩
  obtain ⟨value, isLast⟩ := exists_lastValue among
  simp [isLast, sameKinds entry among value isLast]

end Kinds

set_option maxRecDepth 20000 in
/-- Two lists of one name, the second of which holds the first. -/
theorem infer_strict_iff_lists :
    let block := "a: list => []\na: list => [a]"
    let result : Context := ⟨[("a", .list [.list []])]⟩
    infer block .empty false = .ok result ∧ ∃ after, infer block .empty true = .ok after := by
  intro block result
  let declared : List (Declaration × Expr) := [
    (⟨"a", .list, "[]"⟩, .list []), (⟨"a", .list, "[a]"⟩, .list [.variable "a"])]
  let produced : List (Declaration × Value) := [
    (⟨"a", .list, "[]"⟩, .list []), (⟨"a", .list, "[a]"⟩, .list [.list []])]
  have read : declarations block true = .ok (declared.map (·.1)) := by cbv
  have isName : (Expr.variable "a").Writable := .reference ⟨⟨⟨rfl, by simp⟩, rfl⟩, rfl⟩
  have empty : parse (Declaration.source ⟨"a", .list, "[]"⟩) = .ok (.list []) :=
    Expr.parse_of_tokens (.list (by simp)) (by simp [Expr.constants, Expr.itemsConstants])
      (by decide) (by cbv)
  have nested : parse (Declaration.source ⟨"a", .list, "[a]"⟩) = .ok (.list [.variable "a"]) :=
    Expr.parse_of_tokens (.list (List.forall_mem_singleton.mpr isName))
      (by simp [Expr.constants, Expr.itemsConstants]) (by decide) (by cbv)
  have binds : ∀ entry ∈ declared, entry.1.Binds entry.2 :=
    List.forall_mem_cons.mpr ⟨⟨by cbv, by decide, empty, by decide⟩,
      List.forall_mem_singleton.mpr ⟨by cbv, by decide, nested, by decide⟩⟩
  have inferred : infer block .empty false = .ok result := by
    rw [infer_eq_foldlM read binds]
    cbv
  have evaluates : Evaluates .empty produced result :=
    .cons empty (by cbv) (.cons nested (by cbv) (.nil _))
  refine ⟨inferred, (infer_strict_iff read evaluates inferred).1.mpr ?_⟩
  simp [produced, lastValue?, Value.kind, DeclaredKind.kind]

set_option maxRecDepth 20000 in
/--
A string that a list of the same name replaces: both values have their declared kinds, and strict
inference refuses the block.
-/
theorem not_infer_strict_of_replaced :
    let block := "a: str => 'x'\na: list => ['y']"
    let produced : List (Declaration × Value) := [
      (⟨"a", .str, "'x'"⟩, .str "x"), (⟨"a", .list, "['y']"⟩, .list [.str "y"])]
    let result : Context := ⟨[("a", .list [.str "y"])]⟩
    declarations block true = .ok (produced.map (·.1)) ∧
      Evaluates .empty produced result ∧
      infer block .empty false = .ok result ∧
      (∀ entry ∈ produced, entry.2.kind = entry.1.kind.kind) ∧
      infer block .empty true =
        .error (.evaluation "'a' was declared Str but evaluated to list") := by
  intro block produced result
  let declared : List (Declaration × Expr) := [
    (⟨"a", .str, "'x'"⟩, .literal (.str "x")),
    (⟨"a", .list, "['y']"⟩, .list [.literal (.str "y")])]
  have read : declarations block true = .ok (declared.map (·.1)) := by cbv
  have string : parse (Declaration.source ⟨"a", .str, "'x'"⟩) = .ok (.literal (.str "x")) :=
    Expr.parse_of_tokens (.literal trivial) (by simp [Expr.constants, Literal.isExact])
      (by decide) (by cbv)
  have list : parse (Declaration.source ⟨"a", .list, "['y']"⟩) =
      .ok (.list [.literal (.str "y")]) :=
    Expr.parse_of_tokens (.list (List.forall_mem_singleton.mpr (.literal trivial)))
      (by simp [Expr.constants, Expr.itemsConstants, Literal.isExact]) (by decide) (by cbv)
  have binds : ∀ entry ∈ declared, entry.1.Binds entry.2 :=
    List.forall_mem_cons.mpr ⟨⟨by cbv, by decide, string, by decide⟩,
      List.forall_mem_singleton.mpr ⟨by cbv, by decide, list, by decide⟩⟩
  have inferred : infer block .empty false = .ok result := by
    rw [infer_eq_foldlM read binds]
    cbv
  have evaluates : Evaluates .empty produced result :=
    .cons string (by cbv) (.cons list (by cbv) (.nil _))
  refine ⟨read, evaluates, inferred, by simp [produced, Value.kind, DeclaredKind.kind], ?_⟩
  rw [infer_strict_eq read inferred]
  cbv

end Document
end TemplatedMarkup
