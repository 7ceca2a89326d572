import TemplatedMarkup.Proofs.Template.Block
import TemplatedMarkup.Proofs.Template.Malformed
import TemplatedMarkup.Template.Render

/-!
# Filters that exist

A template is checked before it is rendered, and the check covers every filter that is named
anywhere in it.  A value that goes through filters that exist never fails for want of one.
-/

namespace TemplatedMarkup

/-- An error other than that of a value that has reached a filter that does not exist. -/
def TemplateError.IsOrdinary (cause : TemplateError) : Prop :=
  ∀ name, cause ≠ .unknownFilter name

theorem TemplateError.IsMalformed.isOrdinary {cause : TemplateError} :
    cause.IsMalformed → cause.IsOrdinary := by
  rintro ⟨message, rfl⟩ name ⟨⟩

namespace Template

open TemplateError (IsOrdinary)

/-- All filters with some names exist. -/
def KnowsAll (registry : Document.FilterRegistry) (names : List String) : Prop :=
  ∀ name ∈ names, isKnownFilter registry name = true

section Checking

variable {registry : Document.FilterRegistry}

theorem KnowsAll.mono
    {names others : List String}
    (known : KnowsAll registry names)
    (among : others ⊆ names) :
    KnowsAll registry others :=
  fun name isOther => known name (among isOther)

theorem knowsAll_append {front behind : List String} :
    KnowsAll registry (front ++ behind) ↔ KnowsAll registry front ∧ KnowsAll registry behind := by
  simp only [KnowsAll, List.mem_append, or_imp, forall_and]

/-- The filters of the name of the parent are filters of the template. -/
theorem KnowsAll.parent
    {template : Template}
    {chain : FilterChain}
    (known : KnowsAll registry template.filterNames)
    (isParent : template.parent = some chain) :
    KnowsAll registry chain.filterNames := by
  simpa [isParent] using (knowsAll_append.mp known).1

/-- The filters of the nodes are filters of the template. -/
theorem KnowsAll.nodes
    {template : Template}
    (known : KnowsAll registry template.filterNames) :
    KnowsAll registry (Node.filterNamesOf template.nodes) :=
  (knowsAll_append.mp known).2

theorem leastName?_eq_none_iff {names : List String} : leastName? names = none ↔ names = [] := by
  cases names with
  | nil => simp [leastName?]
  | cons name names =>
      simp only [leastName?]
      split <;> simp

/-- A template passes the check exactly if all filters that it names exist. -/
theorem checkFilters_eq_ok_iff {template : Template} :
    checkFilters registry template = .ok () ↔ KnowsAll registry template.filterNames := by
  have noneUnknown : template.filterNames.filter (!isKnownFilter registry ·) = [] ↔
      KnowsAll registry template.filterNames := by
    simp [List.filter_eq_nil_iff, KnowsAll]
  rw [← noneUnknown, ← leastName?_eq_none_iff, checkFilters]
  cases leastName? (template.filterNames.filter (!isKnownFilter registry ·)) <;> simp

/-- A template that is loaded has passed the check. -/
theorem knowsAll_of_loadChecked
    {library : Library}
    {name : String}
    {template : Template}
    (loaded : loadChecked library registry name = .ok template) :
    KnowsAll registry template.filterNames := by
  obtain ⟨source, -, read⟩ := exists_of_bind_eq_ok loaded
  obtain ⟨parsed, -, rest⟩ := exists_of_bind_eq_ok read
  obtain ⟨⟨⟩, checked, isTemplate⟩ := exists_of_bind_eq_ok rest
  obtain rfl := Except.ok.inj isTemplate
  exact checkFilters_eq_ok_iff.mp checked

end Checking

/-! ## Filters of blocks -/

namespace Node

mutual

/-- The filters of a block are filters of the node that it is in. -/
theorem filterNamesOf_subset :
    ∀ {node : Node} {name : String} {body : List Node},
      (name, body) ∈ node.blocks → filterNamesOf body ⊆ node.filterNames
  | .block _ inner, name, body, among => by
      rcases List.mem_cons.mp among with same | inside
      · obtain ⟨-, rfl⟩ := Prod.mk.inj same
        exact List.Subset.refl _
      · exact filterNamesOf_subset_of_mem inside
  | .branch branches otherwise, name, body, among => by
      rcases List.mem_append.mp among with inBranches | inOtherwise
      · exact List.subset_append_of_subset_left _
          (filterNamesOf_subset_of_mem_branches inBranches)
      · exact List.subset_append_of_subset_right _ (filterNamesOf_subset_of_mem inOtherwise)
  | .loop header inner empty, name, body, among => by
      rcases List.mem_append.mp among with inBody | inEmpty
      · exact List.subset_append_of_subset_left _
          (List.subset_append_of_subset_right _ (filterNamesOf_subset_of_mem inBody))
      · exact List.subset_append_of_subset_right _ (filterNamesOf_subset_of_mem inEmpty)
  | .text _, _, _, among => by simp [blocks] at among
  | .variable _, _, _, among => by simp [blocks] at among
  | .include _, _, _, among => by simp [blocks] at among

/-- The filters of a block are filters of the nodes that it is in. -/
theorem filterNamesOf_subset_of_mem :
    ∀ {nodes : List Node} {name : String} {body : List Node},
      (name, body) ∈ blocksOf nodes → filterNamesOf body ⊆ filterNamesOf nodes
  | [], _, _, among => by simp [blocksOf] at among
  | _ :: _, name, body, among => by
      rcases List.mem_append.mp among with inNode | inNodes
      · exact List.subset_append_of_subset_left _ (filterNamesOf_subset inNode)
      · exact List.subset_append_of_subset_right _ (filterNamesOf_subset_of_mem inNodes)

/-- The filters of a block are filters of the branches that it is in. -/
theorem filterNamesOf_subset_of_mem_branches :
    ∀ {branches : List (Expression.Expr × List Node)} {name : String} {body : List Node},
      (name, body) ∈ blocksOfBranches branches →
        filterNamesOf body ⊆ filterNamesOfBranches branches
  | [], _, _, among => by simp [blocksOfBranches] at among
  | (_, _) :: _, name, body, among => by
      rcases List.mem_append.mp among with inBranch | inBranches
      · exact List.subset_append_of_subset_left _ (filterNamesOf_subset_of_mem inBranch)
      · exact List.subset_append_of_subset_right _
          (filterNamesOf_subset_of_mem_branches inBranches)

end

end Node

/-! ## Failures -/

section Failures

variable {registry : Document.FilterRegistry} {scope : Scope}

theorem isOrdinary_evaluation (message : String) :
    (TemplateError.evaluation message).IsOrdinary :=
  fun _ same => nomatch same

theorem isOrdinary_notFound (name : String) : (TemplateError.notFound name).IsOrdinary :=
  fun _ same => nomatch same

/-- A filter that exists is found when it is applied. -/
theorem failsWith_applyFilter
    {name : String}
    (known : isKnownFilter registry name = true)
    (marked : Marked)
    (argument : Option Value) :
    FailsWith IsOrdinary (applyFilter registry name marked argument) := by
  rw [applyFilter]
  split
  · split
    · exact .ok _
    · exact .error (isOrdinary_evaluation _)
  · split
    · exact FailsWith.mapError (fun _ => isOrdinary_evaluation _) _
    · rename_i notRegistered _ notBuiltin
      simp [isKnownFilter, notBuiltin, Table.contains, notRegistered] at known

/-- A chain of filters that exist fails for other reasons only. -/
theorem failsWith_eval
    {chain : FilterChain}
    (known : KnowsAll registry chain.filterNames) :
    FailsWith IsOrdinary (chain.eval registry scope) :=
  FailsWith.foldlM
    (fun _ among _ => failsWith_applyFilter (known _ (List.mem_map_of_mem among)) _ _) _

theorem failsWith_load (library : Library) (name : String) :
    FailsWith IsOrdinary (library.load name) := by
  rw [Library.load]
  split
  · split
    · exact .ok _
    · exact .error (isOrdinary_notFound _)
  · exact .error (isOrdinary_notFound _)

theorem failsWith_parse_ordinary (source : String) : FailsWith IsOrdinary (parse source) :=
  (failsWith_parse source).mono fun _ => TemplateError.IsMalformed.isOrdinary

theorem failsWith_checkFilters (template : Template) :
    FailsWith IsOrdinary (checkFilters registry template) := by
  simp only [checkFilters]
  split
  · exact .ok _
  · exact .error (TemplateError.IsMalformed.isOrdinary ⟨_, rfl⟩)

theorem failsWith_loadChecked (library : Library) (name : String) :
    FailsWith IsOrdinary (loadChecked library registry name) :=
  (failsWith_load library name).bind fun source _ =>
    (failsWith_parse_ordinary source).bind fun template _ =>
      (failsWith_checkFilters template).bind fun _ _ => .ok _

theorem failsWith_loopItems (sequence : Value) (reversed : Bool) :
    FailsWith IsOrdinary (loopItems sequence reversed) := by
  rw [loopItems.eq_def]
  split
  · exact .ok _
  · split
    · exact .ok _
    · exact .error (isOrdinary_evaluation _)

theorem failsWith_loopScope
    (targets : List String)
    (length : Nat)
    (item : Value)
    (position : Nat) :
    FailsWith IsOrdinary (loopScope targets length scope item position) := by
  have unpacked : FailsWith IsOrdinary (unpack targets item) := by
    rw [unpack.eq_def]
    split
    · exact .ok _
    · split
      · exact .ok _
      · exact .error (isOrdinary_evaluation _)
    · exact .error (isOrdinary_evaluation _)
  exact unpacked.bind fun _ _ => .ok _

end Failures

end Template
end TemplatedMarkup
