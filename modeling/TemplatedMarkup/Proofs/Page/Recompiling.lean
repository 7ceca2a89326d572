import TemplatedMarkup.Page.Compile
import TemplatedMarkup.Proofs.Document.Registration

/-!
# Compiling a document again

Building a document reads no filter that was registered before, and puts its own filters over the
others.  A second compilation of the document over the same context therefore reaches the rendering
with the registry that the first one left, and ends where the first one ended.
-/

namespace TemplatedMarkup
namespace Session

open Document

/-- The filters of a block are put over any registry alike. -/
theorem exists_register_eq_merge
    (settings : Settings)
    (context : Context)
    (block : Option String) :
    ∃ registered outcome, ∀ registry,
      register settings ⟨context, registry⟩ block =
        (⟨context, registry.merge registered⟩, outcome) := by
  cases block with
  | none => exact ⟨.empty, .ok (), fun registry => rfl⟩
  | some block =>
      obtain ⟨registered, outcome, merges⟩ :=
        exists_registerFilters_eq_merge settings.strict 1 (Text.lines block)
      refine ⟨registered, outcome.map fun _ => (), fun registry => ?_⟩
      simp only [register, compileFilters, merges]

/-- Declarations are put over the context without a look at the registry. -/
theorem exists_declare_eq
    (settings : Settings)
    (context : Context)
    (block : Option String) :
    ∃ outcome : Except DocumentError Context, ∀ registry,
      declare settings ⟨context, registry⟩ block = outcome.map (⟨·, registry⟩) := by
  cases block with
  | none => exact ⟨.ok context, fun registry => rfl⟩
  | some block =>
      refine ⟨infer block context settings.strict, fun registry => ?_⟩
      simp only [declare]
      cases infer block context settings.strict <;> rfl

/-- A document does to a context, and puts over a registry, the same whatever the registry holds. -/
theorem exists_build_eq_merge
    (settings : Settings)
    (context : Context)
    (source : String) :
    ∃ registered after outcome, ∀ registry,
      build settings ⟨context, registry⟩ source =
        (⟨after, registry.merge registered⟩, outcome) := by
  unfold build
  cases extract source settings.strict with
  | error cause => exact ⟨.empty, context, .error cause, fun registry => rfl⟩
  | ok blocks =>
      obtain ⟨registered, outcome, merges⟩ :=
        exists_register_eq_merge settings context (blocks.get? filtersName)
      simp only [merges]
      cases outcome with
      | error cause => exact ⟨registered, context, .error cause, fun registry => rfl⟩
      | ok names =>
          obtain ⟨outcome, declares⟩ :=
            exists_declare_eq settings context (blocks.get? contextName)
          simp only [declares]
          cases outcome with
          | error cause => exact ⟨registered, context, .error cause, fun registry => rfl⟩
          | ok after =>
              exact ⟨registered, after, .ok (assemble settings source blocks), fun registry => rfl⟩

/-- A document that is built again, over what it registered, is built alike. -/
theorem build_again
    (settings : Settings)
    (session : Session)
    (source : String) :
    build settings ⟨session.context, (session.build settings source).1.registry⟩ source =
      session.build settings source := by
  obtain ⟨context, registry⟩ := session
  obtain ⟨registered, after, outcome, merges⟩ := exists_build_eq_merge settings context source
  simp only [merges, Table.merge_merge_self]

/-- Rendering leaves the registry as it is. -/
theorem registry_tryCompile
    (settings : Settings)
    (session : Session)
    (source : String) :
    (session.tryCompile settings source).1.registry =
      (session.build settings source).1.registry := by
  unfold tryCompile
  cases session.build settings source with
  | mk after outcome =>
      cases outcome with
      | error cause => rfl
      | ok page =>
          simp only
          cases after.render settings page <;> rfl

/-- The page of an error is bound without a change of the registry. -/
theorem registry_compile
    (settings : Settings)
    (session : Session)
    (source : String) :
    (session.compile settings source).1.registry =
      (session.tryCompile settings source).1.registry := by
  unfold compile
  cases session.tryCompile settings source with
  | mk after outcome => cases outcome <;> rfl

/--
A document that is compiled again over the same context and the registry of its first compilation
gives the same text, or the same error, and leaves the same context and the same registry, also
when it fails on the way.
-/
theorem compile_again
    (settings : Settings)
    (session : Session)
    (source : String) :
    tryCompile settings
        ⟨session.context, (session.tryCompile settings source).1.registry⟩ source =
      session.tryCompile settings source ∧
    compile settings ⟨session.context, (session.compile settings source).1.registry⟩ source =
      session.compile settings source := by
  have again : tryCompile settings
      ⟨session.context, (session.tryCompile settings source).1.registry⟩ source =
      session.tryCompile settings source := by
    rw [registry_tryCompile, tryCompile, build_again]
    rfl
  refine ⟨again, ?_⟩
  rw [registry_compile, compile, again]
  rfl

end Session
end TemplatedMarkup
