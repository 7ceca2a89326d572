import TemplatedMarkup.Proofs.Template.Inheritance

/-!
# Chains of templates that are found

A template with its ancestors is a chain in which every parent is loaded under the name that the
template before it gives.  A rendering that succeeds passes the check, finds the ancestors and
shows the chain.
-/

namespace TemplatedMarkup
namespace Template

variable {library : Library} {registry : Document.FilterRegistry} {scope : Scope}
  {template : Template}

/-! ## Loading -/

/-- A template is loaded if it is read from a source of the library and all its filters exist. -/
theorem loadChecked_eq_ok
    {name source : String}
    (loaded : library.load name = .ok source)
    (parsed : parse source = .ok template)
    (checked : checkFilters registry template = .ok ()) :
    loadChecked library registry name = .ok template := by
  simp only [loadChecked, loaded, parsed, checked, bind, Except.bind, pure, Except.pure]

/-- A template that is loaded is read from a source of the library. -/
theorem exists_source_of_loadChecked
    {name : String}
    (loaded : loadChecked library registry name = .ok template) :
    ∃ source, library.load name = .ok source ∧ parse source = .ok template := by
  obtain ⟨source, found, read⟩ := exists_of_bind_eq_ok loaded
  obtain ⟨parsed, isParsed, rest⟩ := exists_of_bind_eq_ok read
  obtain ⟨-, -, isTemplate⟩ := exists_of_bind_eq_ok rest
  obtain rfl := Except.ok.inj isTemplate
  exact ⟨source, found, isParsed⟩

/-! ## Ancestors -/

/-- A template has ancestors that are loaded under names, up to one without a parent. -/
inductive IsLineage
    (library : Library)
    (registry : Document.FilterRegistry)
    (scope : Scope) : Template → List String → List Template → Prop
  /-- A template without a parent. -/
  | root {template : Template} :
      template.parent = none →
      IsLineage library registry scope template [] []
  /-- A template with a parent that is loaded. -/
  | derived
      {template parent : Template}
      {chain : FilterChain}
      {marked : Marked}
      {names : List String}
      {ancestors : List Template} :
      template.parent = some chain →
      chain.eval registry scope = .ok marked →
      loadChecked library registry marked.value.display = .ok parent →
      IsLineage library registry scope parent names ancestors →
      IsLineage library registry scope template
        (marked.value.display :: names) (parent :: ancestors)

section Ancestors

variable {seen : List String} {template parent : Template} {chain : FilterChain}

theorem ancestorsFrom_of_root
    {remaining : Nat}
    (isRoot : template.parent = none) :
    ancestorsFrom library registry scope remaining seen template = .ok [] := by
  rw [ancestorsFrom.eq_def, isRoot]

theorem ancestorsFrom_zero_of_parent
    (derived : template.parent = some chain) :
    ancestorsFrom library registry scope 0 seen template = (do
      let name := (← chain.eval registry scope).value.display
      if seen.contains name then
        .error (.malformed s!"template '{name}' extends itself")
      else .error (.malformed s!"inheritance deeper than {maxAncestors} templates")) := by
  rw [ancestorsFrom, derived]

theorem ancestorsFrom_succ_of_parent
    {remaining : Nat}
    (derived : template.parent = some chain) :
    ancestorsFrom library registry scope (remaining + 1) seen template = (do
      let name := (← chain.eval registry scope).value.display
      if seen.contains name then
        .error (.malformed s!"template '{name}' extends itself")
      else
        let parent ← loadChecked library registry name
        return parent ::
          (← ancestorsFrom library registry scope remaining (name :: seen) parent)) := by
  rw [ancestorsFrom, derived]

/--
The ancestors of a template are found if they have different names that are new, and if they are
not too many.
-/
theorem ancestorsFrom_eq_ok_iff
    {remaining : Nat}
    {ancestors : List Template} :
    ancestorsFrom library registry scope remaining seen template = .ok ancestors ↔
      ∃ names, IsLineage library registry scope template names ancestors ∧
        names.Nodup ∧ (∀ name ∈ names, name ∉ seen) ∧ names.length ≤ remaining := by
  constructor
  · intro found
    induction remaining generalizing seen template ancestors with
    | zero =>
        cases derived : template.parent with
        | none =>
            rw [ancestorsFrom_of_root derived] at found
            obtain rfl := Except.ok.inj found
            exact ⟨[], .root derived, by simp⟩
        | some chain =>
            rw [ancestorsFrom_zero_of_parent derived] at found
            obtain ⟨marked, -, refused⟩ := exists_of_bind_eq_ok found
            simp only at refused
            split at refused <;> contradiction
    | succ remaining inductionHypothesis =>
        cases derived : template.parent with
        | none =>
            rw [ancestorsFrom_of_root derived] at found
            obtain rfl := Except.ok.inj found
            exact ⟨[], .root derived, by simp⟩
        | some chain =>
            rw [ancestorsFrom_succ_of_parent derived] at found
            obtain ⟨marked, evaluated, followed⟩ := exists_of_bind_eq_ok found
            simp only at followed
            split at followed
            · contradiction
            · rename_i isNew
              obtain ⟨parent, loaded, more⟩ := exists_of_bind_eq_ok followed
              obtain ⟨others, foundOthers, isAll⟩ := exists_of_bind_eq_ok more
              obtain rfl := Except.ok.inj isAll
              obtain ⟨names, lineage, distinct, unseen, few⟩ := inductionHypothesis foundOthers
              simp only [List.mem_cons, not_or] at unseen
              refine ⟨_, .derived derived evaluated loaded lineage, ?_, ?_, ?_⟩
              · exact List.nodup_cons.mpr
                  ⟨fun among => (unseen _ among).1 rfl, distinct⟩
              · refine List.forall_mem_cons.mpr ⟨by simpa using isNew, ?_⟩
                exact fun name among => (unseen name among).2
              · simpa using few
  · rintro ⟨names, lineage, distinct, unseen, few⟩
    induction lineage generalizing seen remaining with
    | root isRoot => exact ancestorsFrom_of_root isRoot
    | @derived _ _ _ marked names _ derived evaluated loaded _ inductionHypothesis =>
        rw [List.nodup_cons] at distinct
        rw [List.forall_mem_cons] at unseen
        obtain ⟨fewer, rfl⟩ : ∃ fewer, remaining = fewer + 1 :=
          Nat.exists_eq_succ_of_ne_zero (by rintro rfl; simp at few)
        have isNew : ∀ name ∈ names, name ∉ marked.value.display :: seen := fun name among =>
          List.not_mem_cons_of_ne_of_not_mem
            (ne_of_mem_of_not_mem among distinct.1) (unseen.2 name among)
        have found := inductionHypothesis distinct.2 isNew (Nat.le_of_succ_le_succ few)
        rw [ancestorsFrom_succ_of_parent derived, evaluated]
        simp only [bind, Except.bind]
        rw [if_neg (by simpa using unseen.1)]
        simp only [loaded, found, pure, Except.pure]

end Ancestors

/-- Every template of a chain that is found gives different names to its blocks. -/
theorem IsLineage.hasDistinctBlocks
    {names : List String}
    {ancestors : List Template}
    (distinct : (template.blocks.map (·.1)).Nodup)
    (lineage : IsLineage library registry scope template names ancestors) :
    HasDistinctBlocks (template :: ancestors) := by
  induction lineage with
  | root => exact List.forall_mem_singleton.mpr distinct
  | derived _ _ loaded _ inductionHypothesis =>
      obtain ⟨source, -, parsed⟩ := exists_source_of_loadChecked loaded
      exact List.forall_mem_cons.mpr ⟨distinct, inductionHypothesis (nodup_blocks_of_parse parsed)⟩

/-! ## Rendering -/

/-- How templates are shown in others that may nest so many. -/
def includedWithin
    (library : Library)
    (registry : Document.FilterRegistry) : Nat → Option (String → Rendering)
  | 0 => none
  | includes + 1 => some fun name scope => do
      let included ← parse (← library.load name)
      renderWithin library registry includes included scope

theorem renderWithin_eq (includes : Nat) :
    renderWithin library registry includes template scope = (do
      checkFilters registry template
      let ancestors ← ancestorsFrom library registry scope maxAncestors [] template
      renderLineage ⟨registry, includedWithin library registry includes⟩ (fun _ => none)
        template ancestors scope) := by
  cases includes <;> rw [renderWithin] <;> rfl

/-- A template that passes the check is shown with the ancestors that are found. -/
theorem renderWithin_eq_renderLineage
    {includes : Nat}
    {ancestors : List Template}
    (checked : checkFilters registry template = .ok ())
    (found : ancestorsFrom library registry scope maxAncestors [] template = .ok ancestors) :
    renderWithin library registry includes template scope =
      renderLineage ⟨registry, includedWithin library registry includes⟩ (fun _ => none)
        template ancestors scope := by
  rw [renderWithin_eq, checked, found]
  rfl

/-- A rendering that succeeds passes the check, finds the ancestors and shows the chain. -/
theorem exists_of_renderWithin_eq_ok
    {includes : Nat}
    {text : String}
    (rendered : renderWithin library registry includes template scope = .ok text) :
    ∃ ancestors, checkFilters registry template = .ok () ∧
      ancestorsFrom library registry scope maxAncestors [] template = .ok ancestors ∧
      renderLineage ⟨registry, includedWithin library registry includes⟩ (fun _ => none)
        template ancestors scope = .ok text := by
  rw [renderWithin_eq] at rendered
  obtain ⟨⟨⟩, checked, rest⟩ := exists_of_bind_eq_ok rendered
  obtain ⟨ancestors, found, shown⟩ := exists_of_bind_eq_ok rest
  exact ⟨ancestors, checked, found, shown⟩

end Template
end TemplatedMarkup
