import TemplatedMarkup.Proofs.Text.Case
import TemplatedMarkup.Proofs.Value.Text
import TemplatedMarkup.Template.Render

/-!
# Brackets of tags in shown variables

The value of a variable is shown escaped unless it is marked safe, and a built-in filter marks safe
only what opens no tag.  The filters that are there to show HTML are exempt, and `default` is a
leak: it marks its argument safe, also when the argument comes from the context.
-/

namespace TemplatedMarkup
namespace Template

/-- The filters whose results are shown as HTML. -/
def htmlFilters : List String :=
  ["safe", "linebreaks", "linebreaksbr"]

/-- A value that is marked safe is shown without opening a tag. -/
def Marked.IsPlain (marked : Marked) : Prop :=
  marked.safe = true → '<' ∉ marked.value.display.toList

/-- A plain value is shown without opening a tag, as other text is escaped. -/
theorem Marked.IsPlain.not_mem_text
    {marked : Marked}
    (plain : marked.IsPlain) :
    '<' ∉ marked.text.toList := by
  unfold Marked.text
  split
  · rename_i safe
    exact plain safe
  · exact Text.not_mem_escapeHtml _

namespace BuiltinFilter

variable {marked : Marked}

/-- A change of the text that brings in no bracket keeps a value plain. -/
theorem isPlain_mapText
    {change : List Char → List Char}
    (keeps : ∀ text, '<' ∈ change text → '<' ∈ text)
    (plain : marked.IsPlain) :
    (mapText change marked).IsPlain := by
  intro safe opens
  refine plain safe (keeps _ ?_)
  simpa [mapText, Value.ofText, Value.display] using opens

/-- What is picked from a value opens a tag only if the value does. -/
theorem mem_display_of_pick
    {select : {Item : Type} → List Item → Option Item}
    (selects : ∀ {Item : Type} {items : List Item} {item : Item},
      select items = some item → item ∈ items)
    {value : Value}
    (opens : '<' ∈ (pick select value).display.toList) :
    '<' ∈ value.display.toList := by
  have noBracket : '<' ∉ (Value.str "").display.toList := by
    simp [Value.display]
  unfold pick at opens
  split at opens
  · rename_i items
    cases selected : select items with
    | none =>
        simp only [selected, Option.getD_none] at opens
        exact absurd opens noBracket
    | some item =>
        simp only [selected, Option.getD_some] at opens
        exact Value.mem_display_list (selects selected) opens
  · rename_i text
    simp only [Value.ofText, Value.display, String.toList_ofList, Option.mem_toList] at opens
    exact selects opens
  · exact absurd opens noBracket

theorem isPlain_pick
    {select : {Item : Type} → List Item → Option Item}
    (selects : ∀ {Item : Type} {items : List Item} {item : Item},
      select items = some item → item ∈ items)
    (plain : marked.IsPlain) :
    Marked.IsPlain { marked with value := pick select marked.value } :=
  fun safe opens => plain safe (mem_display_of_pick selects opens)

/-- Items that are joined open no tag, as those of an unsafe list and the separator are escaped. -/
theorem not_mem_joinItems
    {items : List Value}
    {safe : Bool}
    (plain : Marked.IsPlain ⟨.list items, safe⟩)
    (separator : Option Value) :
    '<' ∉ (joinItems items safe separator).display.toList := by
  intro opens
  simp only [joinItems, Value.display, Text.join, String.toList_ofList] at opens
  rcases Text.mem_of_mem_intercalate opens with inSeparator | ⟨part, isPart, inPart⟩
  · exact Text.not_mem_escapeHtml _ inSeparator
  · simp only [List.mem_map, exists_exists_and_eq_and] at isPart
    obtain ⟨item, among, rfl⟩ := isPart
    have itemPlain : Marked.IsPlain ⟨item, safe⟩ := fun isSafe opened =>
      plain isSafe (Value.mem_display_list among opened)
    exact itemPlain.not_mem_text inPart

/--
A filter that shows no HTML keeps values plain, except that `default` may put its argument in.
-/
theorem isPlain_of_apply
    {filter : BuiltinFilter}
    {argument : Option Value}
    {result : Marked}
    (allowed : filter.name ∉ htmlFilters)
    (plain : marked.IsPlain)
    (applied : filter.apply marked argument = .ok result) :
    result.IsPlain ∨
      filter = .default ∧ marked.value.truthy = false ∧ argument = some result.value := by
  have isMark : Text.IsMark '<' := ⟨by decide, by decide⟩
  cases filter with
  | upper =>
      obtain rfl := Except.ok.inj applied
      exact .inl (isPlain_mapText (fun _ => Text.mem_of_mem_upper isMark) plain)
  | lower =>
      obtain rfl := Except.ok.inj applied
      exact .inl (isPlain_mapText (fun _ => Text.mem_of_mem_lower isMark) plain)
  | title =>
      obtain rfl := Except.ok.inj applied
      exact .inl (isPlain_mapText (fun _ => Text.mem_of_mem_title isMark) plain)
  | capfirst =>
      obtain rfl := Except.ok.inj applied
      exact .inl (isPlain_mapText (fun _ => Text.mem_of_mem_upperFirst isMark) plain)
  | length =>
      obtain rfl := Except.ok.inj applied
      refine .inl fun _ opens => ?_
      have isNumber : ∃ text, Expression.Literal.int (.ofNat (lengthOf marked.value)) = .str text ∧
        '<' ∈ text.toList := Value.mem_of_mem_display_ofLiteral opens
      obtain ⟨text, isText, -⟩ := isNumber
      contradiction
  | default =>
      cases argument with
      | none => contradiction
      | some value =>
          obtain rfl := Except.ok.inj applied
          cases truthy : marked.value.truthy with
          | true => exact .inl (by simpa [truthy] using plain)
          | false => exact .inr ⟨rfl, rfl, by simp⟩
  | join =>
      refine .inl ?_
      simp only [apply] at applied
      split at applied
      · rename_i items isList
        obtain rfl := Except.ok.inj applied
        exact fun _ => not_mem_joinItems (by rwa [← isList]) argument
      · obtain rfl := Except.ok.inj applied
        exact plain
  | first =>
      obtain rfl := Except.ok.inj applied
      exact .inl (isPlain_pick List.mem_of_head? plain)
  | last =>
      obtain rfl := Except.ok.inj applied
      exact .inl (isPlain_pick List.mem_of_getLast? plain)
  | escape =>
      obtain rfl := Except.ok.inj applied
      exact .inl fun _ => plain.not_mem_text
  | striptags =>
      obtain rfl := Except.ok.inj applied
      exact .inl (isPlain_mapText (fun _ => Text.mem_of_mem_stripTags) plain)
  | safe => exact absurd (by decide) allowed
  | linebreaks => exact absurd (by decide) allowed
  | linebreaksbr => exact absurd (by decide) allowed

end BuiltinFilter

/-! ## Chains -/

/-- The operands of a chain: what it starts from and the arguments of its filters. -/
def FilterChain.operands (chain : FilterChain) : List Operand :=
  chain.base :: chain.filters.filterMap (·.2)

/-- A constant that opens no tag. -/
def Operand.IsPlain (operand : Operand) : Prop :=
  ∀ text, operand = .literal (.str text) → '<' ∉ text.toList

/--
A filter lets a tag of the context through: it is `default`, it replaces a value that counts as
false, and the path that is its argument leads to a value whose text opens a tag.
-/
structure Leaks
    (scope : Scope)
    (marked : Marked)
    (filter : String × Option Operand) : Prop where
  /-- The filter gives a default. -/
  isDefault : filter.1 = "default"
  /-- The default is used. -/
  isUsed : marked.value.truthy = false
  /-- The default is a value of the context that opens a tag. -/
  opens : ∃ name attributes, filter.2 = some (.path name attributes) ∧
    '<' ∈ ((Operand.path name attributes).eval scope).value.display.toList

section Chain

variable {scope : Scope}

/-- The value of a plain operand is plain, as a path is not marked safe. -/
theorem Operand.IsPlain.isPlain_eval
    {operand : Operand}
    (plain : operand.IsPlain) :
    (operand.eval scope).IsPlain := by
  intro safe opens
  cases operand with
  | path name attributes => contradiction
  | literal constant =>
      obtain ⟨text, rfl, among⟩ := Value.mem_of_mem_display_ofLiteral opens
      exact plain text rfl among

/-- The name of the built-in filter that is found under a name. -/
theorem BuiltinFilter.name_of_ofName?
    {name : String}
    {filter : BuiltinFilter}
    (found : ofName? name = some filter) :
    filter.name = name := by
  simpa using List.find?_some found

/-- A step of a chain keeps values plain unless it leaks. -/
theorem isPlain_of_applyStep
    {marked result : Marked}
    {filter : String × Option Operand}
    (allowed : filter.1 ∉ htmlFilters)
    (literals : ∀ operand ∈ filter.2, operand.IsPlain)
    (plain : marked.IsPlain)
    (applied : applyStep .empty scope marked filter = .ok result) :
    result.IsPlain ∨ Leaks scope marked filter := by
  unfold applyStep applyFilter at applied
  have unregistered : (Table.empty : Document.FilterRegistry).get? filter.1 = none := rfl
  rw [unregistered] at applied
  simp only at applied
  split at applied
  · rename_i builtin found
    have isNamed := BuiltinFilter.name_of_ofName? found
    cases done : builtin.apply marked (filter.2.map fun operand => (operand.eval scope).value) with
    | error cause =>
        rw [done] at applied
        contradiction
    | ok other =>
        rw [done] at applied
        obtain rfl := Except.ok.inj applied
        rcases BuiltinFilter.isPlain_of_apply (by rwa [isNamed]) plain done with
          keeps | ⟨rfl, falsy, isArgument⟩
        · exact .inl keeps
        · by_cases opens : '<' ∈ other.value.display.toList
          · obtain ⟨operand, isOperand, isValue⟩ := Option.map_eq_some_iff.mp isArgument
            cases operand with
            | literal constant =>
                rw [← isValue] at opens
                exact absurd opens ((literals _ isOperand).isPlain_eval rfl)
            | path name attributes =>
                refine .inr ⟨isNamed.symm, falsy, name, attributes, isOperand, ?_⟩
                rwa [isValue]
          · exact .inl fun _ => opens
  · contradiction

/-- A run of a chain gives a plain value unless one of its steps leaks. -/
theorem isPlain_of_foldlM
    {filters : List (String × Option Operand)}
    {start result : Marked}
    (allowed : ∀ filter ∈ filters, filter.1 ∉ htmlFilters)
    (literals : ∀ filter ∈ filters, ∀ operand ∈ filter.2, operand.IsPlain)
    (plain : start.IsPlain)
    (folded : filters.foldlM (applyStep .empty scope) start = .ok result) :
    result.IsPlain ∨
      ∃ before filter after marked, filters = before ++ filter :: after ∧
        before.foldlM (applyStep .empty scope) start = .ok marked ∧ Leaks scope marked filter := by
  induction filters generalizing start with
  | nil =>
      obtain rfl := Except.ok.inj folded
      exact .inl plain
  | cons filter filters inductionHypothesis =>
      rw [List.forall_mem_cons] at allowed literals
      cases applied : applyStep .empty scope start filter with
      | error cause => simp [applied, bind, Except.bind] at folded
      | ok next =>
          simp only [List.foldlM_cons, applied, bind, Except.bind] at folded
          rcases isPlain_of_applyStep allowed.1 literals.1 plain applied with nextPlain | leaks
          · rcases inductionHypothesis allowed.2 literals.2 nextPlain folded with
              resultPlain | ⟨before, other, after, marked, rfl, reached, leaks⟩
            · exact .inl resultPlain
            · refine .inr ⟨filter :: before, other, after, marked, rfl, ?_, leaks⟩
              simpa [applied, bind, Except.bind] using reached
          · exact .inr ⟨[], filter, filters, start, rfl, rfl, leaks⟩

/-- A leak gives the value of its path, marked safe. -/
theorem Leaks.applyStep_eq
    {marked : Marked}
    {filter : String × Option Operand}
    (leaks : Leaks scope marked filter) :
    ∃ value, applyStep .empty scope marked filter = .ok ⟨value, true⟩ ∧
      '<' ∈ value.display.toList := by
  obtain ⟨name, argument⟩ := filter
  obtain rfl : name = "default" := leaks.isDefault
  obtain ⟨name, attributes, rfl, opens⟩ := leaks.opens
  refine ⟨_, ?_, opens⟩
  have found : BuiltinFilter.ofName? "default" = some .default := by decide
  have unregistered : (Table.empty : Document.FilterRegistry).get? "default" = none := rfl
  simp [applyStep, applyFilter, unregistered, found, BuiltinFilter.apply, leaks.isUsed,
    Except.mapError]

/--
Without filters of documents, a variable whose filters show no HTML and whose string constants open
no tag is shown without opening a tag, unless a `default` of its chain puts in a value of the
context that opens one.  Such a `default` at the end of the chain does open a tag.
-/
theorem leaks_of_mem_render
    {surroundings : Surroundings}
    {overrides : Overrides}
    {chain : FilterChain}
    {text : String}
    (unregistered : surroundings.registry = .empty)
    (allowed : ∀ name ∈ chain.filterNames, name ∉ htmlFilters)
    (literals : ∀ operand ∈ chain.operands, operand.IsPlain)
    (rendered : (Node.variable chain).render surroundings overrides scope = .ok text) :
    ('<' ∈ text.toList →
      ∃ before filter after marked, chain.filters = before ++ filter :: after ∧
        before.foldlM (applyStep .empty scope) (chain.base.eval scope) = .ok marked ∧
        Leaks scope marked filter) ∧
      ∀ before filter marked, chain.filters = before ++ [filter] →
        before.foldlM (applyStep .empty scope) (chain.base.eval scope) = .ok marked →
        Leaks scope marked filter → '<' ∈ text.toList := by
  rw [Node.render, unregistered] at rendered
  obtain ⟨result, evaluated, rfl⟩ : ∃ result, chain.eval .empty scope = .ok result ∧
      result.text = text := by
    cases evaluated : chain.eval .empty scope with
    | error cause =>
        rw [evaluated] at rendered
        contradiction
    | ok result =>
        rw [evaluated] at rendered
        exact ⟨result, rfl, Except.ok.inj rendered⟩
  constructor
  · intro opens
    have filters : ∀ filter ∈ chain.filters, filter.1 ∉ htmlFilters := fun filter among =>
      allowed filter.1 (List.mem_map_of_mem among)
    have arguments : ∀ filter ∈ chain.filters, ∀ operand ∈ filter.2, operand.IsPlain :=
      fun filter among operand isArgument => literals operand
        (List.mem_cons_of_mem _ (List.mem_filterMap.mpr ⟨filter, among, isArgument⟩))
    have base : (chain.base.eval scope).IsPlain :=
      (literals chain.base (by simp [FilterChain.operands])).isPlain_eval
    rcases isPlain_of_foldlM filters arguments base evaluated with plain | leaking
    · exact absurd opens plain.not_mem_text
    · exact leaking
  · intro before filter marked split reached leaks
    obtain ⟨value, applied, opens⟩ := leaks.applyStep_eq
    rw [FilterChain.eval, split, List.foldlM_append, reached] at evaluated
    simp only [bind, Except.bind, List.foldlM_cons, applied, List.foldlM_nil] at evaluated
    obtain rfl := Except.ok.inj evaluated
    exact opens

/-- A list of the context, joined with a separator that is escaped, opens no tag. -/
theorem leaks_of_mem_render_join :
    let context : Context := .ofList [("items", .list [.str "<b>", .str "a"])]
    let chain : FilterChain :=
      ⟨.path "items" [], [("join", some (.literal (.str " & ")))]⟩
    (∀ name ∈ chain.filterNames, name ∉ htmlFilters) ∧
      (∀ operand ∈ chain.operands, operand.IsPlain) ∧
      (Node.variable chain).render ⟨.empty, none⟩ (fun _ => none) context.scope =
        .ok "&lt;b&gt; &amp; a" ∧
      '<' ∉ "&lt;b&gt; &amp; a".toList := by
  intro context chain
  have allowed : ∀ name ∈ chain.filterNames, name ∉ htmlFilters := by decide
  have literals : ∀ operand ∈ chain.operands, operand.IsPlain := by
    simp [chain, FilterChain.operands, Operand.IsPlain]
  have rendered : (Node.variable chain).render ⟨.empty, none⟩ (fun _ => none) context.scope =
      .ok "&lt;b&gt; &amp; a" := by
    have isJoin : BuiltinFilter.ofName? "join" = some .join := by decide
    have unregistered : (Table.empty : Document.FilterRegistry).get? "join" = none := rfl
    simp only [context, chain, Node.render, FilterChain.eval, List.foldlM_cons, List.foldlM_nil,
      applyStep, applyFilter, unregistered, isJoin]
    rfl
  refine ⟨allowed, literals, rendered, fun opens => ?_⟩
  obtain ⟨before, filter, after, marked, split, -, leaks⟩ :=
    (leaks_of_mem_render rfl allowed literals rendered).1 opens
  have among : filter ∈ chain.filters := by simp [split]
  have noDefault : ∀ filter ∈ chain.filters, filter.1 ≠ "default" := by decide
  exact noDefault filter among leaks.isDefault

/-- A default that the context gives is shown with the tags that it holds. -/
theorem mem_render_default :
    let context : Context := .ofList [("x", .str "<b>")]
    let chain : FilterChain := ⟨.path "missing" [], [("default", some (.path "x" []))]⟩
    parse "\x7b\x7b missing|default:x \x7d\x7d" = .ok ⟨none, [.variable chain]⟩ ∧
      (∀ name ∈ chain.filterNames, name ∉ htmlFilters) ∧
      (∀ operand ∈ chain.operands, operand.IsPlain) ∧
      (Node.variable chain).render ⟨.empty, none⟩ (fun _ => none) context.scope = .ok "<b>" ∧
      renderSource .empty .empty "\x7b\x7b missing|default:x \x7d\x7d" context = .ok "<b>" ∧
      '<' ∈ "<b>".toList := by
  intro context chain
  have cut : pieces "\x7b\x7b missing|default:x \x7d\x7d" =
      [⟨.delimited .variable, " missing|default:x ".toList, 1⟩] := by
    cbv
  have parsed : parse "\x7b\x7b missing|default:x \x7d\x7d" = .ok ⟨none, [.variable chain]⟩ := by
    rw [parse, cut]
    rfl
  have rendered : (Node.variable chain).render ⟨.empty, none⟩ (fun _ => none) context.scope =
      .ok "<b>" := by
    cbv
  refine ⟨parsed, by decide, ?_, rendered, ?_, by decide⟩
  · simp [chain, FilterChain.operands, Operand.IsPlain]
  · rw [renderSource, parsed]
    cbv

end Chain

end Template
end TemplatedMarkup
