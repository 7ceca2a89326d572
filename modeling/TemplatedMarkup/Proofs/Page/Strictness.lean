import TemplatedMarkup.Proofs.Document.Declaration
import TemplatedMarkup.Proofs.Document.Marker
import TemplatedMarkup.Proofs.Document.Registration
import TemplatedMarkup.Proofs.Outcome
import TemplatedMarkup.Proofs.Page.PlainText

/-!
# Strict mode

Strict mode only rejects.  Each stage that looks at the mode does the same in either mode when it
succeeds in strict mode, so a document that is compiled in strict mode is compiled alike otherwise.
-/

namespace TemplatedMarkup

open Document

/-- A context block that strict mode accepts gives the same context in either mode. -/
theorem Document.infer_refines
    (block : String)
    (context : Context)
    (strict : Bool) :
    Refines (infer block context true) (infer block context strict) := by
  have alike : Refines (declarations block true) (declarations block strict) := fun found read =>
    (readDeclarations_of_strict strict (fun _ => Text.not_mem_of_mem_lineLists) read).1
  refine alike.bind fun found _ => ?_
  split
  · exact .refl _
  · refine (Refines.refl _).bind fun result _ => ?_
    cases strict with
    | true => exact .refl _
    | false => exact checkKinds_refines result found true

namespace Session

variable
  {settings : Settings}
  {session after : Session}
  {source : String}

/-- Filters that strict mode accepts are registered alike in either mode. -/
theorem register_of_strict
    (strict : Bool)
    {block : Option String}
    (registered : session.register { settings with strict := true } block = (after, .ok ())) :
    session.register { settings with strict := strict } block = (after, .ok ()) := by
  cases block with
  | none => exact registered
  | some content =>
      simp only [register, compileFilters] at registered ⊢
      cases read : registerFilters true 1 session.registry (Text.lines content) with
      | mk registry outcome =>
          rw [read] at registered
          cases outcome with
          | error cause => cases (Prod.mk.inj registered).2
          | ok names =>
              rw [registerFilters_of_strict strict read]
              exact registered

/-- Declarations that strict mode accepts are put over the context alike in either mode. -/
theorem declare_of_strict
    (strict : Bool)
    {block : Option String}
    (declared : session.declare { settings with strict := true } block = .ok after) :
    session.declare { settings with strict := strict } block = .ok after := by
  cases block with
  | none => exact declared
  | some content =>
      simp only [declare] at declared ⊢
      obtain ⟨context, inferred, last⟩ := exists_of_bind_eq_ok declared
      rw [infer_refines content session.context strict context inferred]
      exact last

/-- A document that strict mode accepts is built alike in either mode. -/
theorem build_of_strict
    (strict : Bool)
    {page : Page}
    (built : session.build { settings with strict := true } source = (after, .ok page)) :
    session.build { settings with strict := strict } source = (after, .ok page) := by
  unfold build at built ⊢
  cases extracted : extract source true with
  | error cause =>
      rw [extracted] at built
      cases (Prod.mk.inj built).2
  | ok blocks =>
      simp only [extracted] at built
      simp only [extract_of_strict strict extracted]
      cases registered :
          session.register { settings with strict := true } (blocks.get? filtersName) with
      | mk reached outcome =>
          rw [registered] at built
          cases outcome with
          | error cause => cases (Prod.mk.inj built).2
          | ok names =>
              simp only at built
              simp only [register_of_strict strict registered]
              cases declared :
                  reached.declare { settings with strict := true } (blocks.get? contextName) with
              | error cause =>
                  rw [declared] at built
                  cases (Prod.mk.inj built).2
              | ok ready =>
                  rw [declared] at built
                  rw [declare_of_strict strict declared]
                  exact built

/--
Strict mode only rejects.  A document that is compiled in strict mode is compiled in lenient mode to
the same text, with the same context and the same registry afterwards.  A source is split into
blocks in strict mode exactly when none of its lines, without comments, is a malformed marker, and
then the blocks are the same in lenient mode.
-/
theorem tryCompile_of_strict
    (settings : Settings)
    (session : Session)
    (source : String) :
    (∀ after text,
      session.tryCompile { settings with strict := true } source = (after, .ok text) →
      session.tryCompile { settings with strict := false } source = (after, .ok text)) ∧
    ((∃ cause, extract source true = .error cause) ↔
      ∃ line ∈ Text.lineLists (stripCommentList source.toList), IsMalformedMarker line) ∧
    ∀ blocks, extract source true = .ok blocks → extract source false = .ok blocks := by
  refine ⟨fun after text compiled => ?_, exists_error_of_readBlocks_iff,
    fun blocks => extract_of_strict false⟩
  unfold tryCompile at compiled ⊢
  cases built : session.build { settings with strict := true } source with
  | mk reached outcome =>
      rw [built] at compiled
      cases outcome with
      | error cause => cases (Prod.mk.inj compiled).2
      | ok page =>
          rw [build_of_strict false built]
          exact compiled

/-- Two paragraphs are no marker, and become the same page in either mode. -/
theorem tryCompile_of_strict_paragraphs :
    let settings : Settings := ⟨true, Template.basePageName, .empty, fun _ => false⟩
    let session : Session := ⟨.empty, .empty⟩
    let source := "one]\n\ntwo"
    let text := Template.basePageWith "" "" "<p>one]</p>\n\n<p>two</p>"
    let after := session.bind textName (.str text)
    session.tryCompile { settings with strict := true } source = (after, .ok text) ∧
      session.tryCompile { settings with strict := false } source = (after, .ok text) ∧
      extract source true = .ok .empty ∧ extract source false = .ok .empty ∧
      ¬ ∃ line ∈ Text.lineLists (stripCommentList source.toList), IsMalformedMarker line := by
  intro settings session source text after
  have modes := tryCompile_of_strict settings session source
  have plain : ∀ mark ∈ reservedMarks, mark ∉ source.toList := by
    simp [reservedMarks, source]
  have extracted : extract source true = .ok .empty := extract_eq_empty (plain '-' (by decide)) true
  have paragraphs : linebreaks source = "<p>one]</p>\n\n<p>two</p>" := by cbv
  have compiled : session.tryCompile settings source = (after, .ok text) := by
    have page : session.tryCompile settings source = _ :=
      tryCompile_plainText plain (by decide) rfl (by decide) (by decide) rfl
    rwa [paragraphs] at page
  refine ⟨compiled, modes.1 after text compiled, extracted, modes.2.2 _ extracted, ?_⟩
  rw [← modes.2.1, extracted]
  rintro ⟨_, ⟨⟩⟩

end Session
end TemplatedMarkup
