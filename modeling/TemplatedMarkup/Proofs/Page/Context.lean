import TemplatedMarkup.Page.Compile
import TemplatedMarkup.Proofs.Document.DeclaredName

/-!
# What a document does to the context

Every stage of a compilation leaves the context as it is, except for the declarations, which change
declared names, and the end, which binds the text.  So a document can be compiled over any context
without a loss, whether it succeeds or not.
-/

namespace TemplatedMarkup

open Document

/-- A document declares a name when a line of its context block does. -/
def Document.DeclaresIn
    (source : String)
    (strict : Bool)
    (name : String) : Prop :=
  ∃ blocks block, extract source strict = .ok blocks ∧ blocks.get? contextName = some block ∧
    ∃ line ∈ Text.lineLists block.toList, Declares line name

namespace Session

variable
  {settings : Settings}
  {session after : Session}
  {source : String}

/-- Filters are registered without a change of the context. -/
theorem context_register
    (settings : Settings)
    (session : Session)
    (block : Option String) :
    (session.register settings block).1.context = session.context := by
  cases block <;> rfl

/-- Declarations change nothing but the names that their block declares. -/
theorem declare_changesOnly
    {block : Option String}
    (declared : session.declare settings block = .ok after) :
    session.context.ChangesOnly
      (fun name => ∃ content, block = some content ∧
        ∃ line ∈ Text.lineLists content.toList, Declares line name) after.context := by
  cases block with
  | none =>
      obtain rfl := Except.ok.inj declared
      exact .refl _ _
  | some content =>
      obtain ⟨context, inferred, last⟩ := exists_of_bind_eq_ok declared
      obtain rfl := Except.ok.inj last
      refine (infer_changesOnly inferred).mono fun name isDeclared => ?_
      exact ⟨content, rfl, isDeclared⟩

/-- A document that is not built leaves the context as it is. -/
theorem context_build_of_error
    {cause : DocumentError}
    (fails : (session.build settings source).2 = .error cause) :
    (session.build settings source).1.context = session.context := by
  unfold build at fails ⊢
  split
  · rfl
  · rename_i blocks extracted
    have kept := context_register settings session (blocks.get? filtersName)
    simp only [extracted] at fails
    split
    · rename_i registered
      rwa [registered] at kept
    · rename_i names registered
      rw [registered] at kept
      simp only [registered] at fails
      split
      · exact kept
      · rename_i declared
        simp [declared] at fails

/-- Building a document changes nothing but the names that it declares. -/
theorem build_changesOnly
    (settings : Settings)
    (session : Session)
    (source : String) :
    session.context.ChangesOnly (DeclaresIn source settings.strict)
      (session.build settings source).1.context := by
  unfold build
  split
  · exact .refl _ _
  · rename_i blocks extracted
    have kept := context_register settings session (blocks.get? filtersName)
    split
    · rename_i registered
      rw [registered] at kept
      rw [kept]
      exact .refl _ _
    · rename_i registered
      rw [registered] at kept
      split
      · rw [kept]
        exact .refl _ _
      · rename_i declared
        rw [← kept]
        refine (declare_changesOnly declared).mono fun name => ?_
        rintro ⟨content, isBlock, onLine⟩
        exact ⟨blocks, content, extracted, isBlock, onLine⟩

/-- What a document may change: the names that it declares, and the one of its text. -/
def Changes
    (settings : Settings)
    (source name : String) : Prop :=
  name = textName ∨ DeclaresIn source settings.strict name

/-- Binding the text changes what a document may change. -/
theorem bind_changesOnly
    (changes : session.context.ChangesOnly (Changes settings source) after.context)
    (text : Value) :
    session.context.ChangesOnly (Changes settings source) (after.bind textName text).context :=
  changes.trans <| (Context.ChangesOnly.set _ _ _).mono fun _ isText => .inl isText

/-- A compilation changes the text and the declared names, and binds the text that it gives. -/
theorem tryCompile_changesOnly
    (settings : Settings)
    (session : Session)
    (source : String) :
    session.context.ChangesOnly (Changes settings source)
        (session.tryCompile settings source).1.context ∧
      ∀ text, (session.tryCompile settings source).2 = .ok text →
        (session.tryCompile settings source).1.context.get? textName = some (.str text) := by
  have changes : session.context.ChangesOnly (Changes settings source)
      (session.build settings source).1.context :=
    (build_changesOnly settings session source).mono fun _ declared => .inr declared
  unfold tryCompile
  split
  · rename_i built
    rw [built] at changes
    exact ⟨changes, fun _ succeeds => nomatch succeeds⟩
  · rename_i built
    rw [built] at changes
    split
    · exact ⟨changes, fun _ succeeds => nomatch succeeds⟩
    · rename_i result _
      refine ⟨bind_changesOnly changes (.str result), fun text isText => ?_⟩
      obtain rfl := Except.ok.inj isText
      exact (Table.get?_set _ _ _ _).trans (if_pos rfl)

/--
A document is compiled over any context without a loss.  Every bound name stays bound, and only the
text and the names that lines of the context block declare may change; the text is what the
compilation gives, be it the document or the page of an error.  When the document cannot be built,
the context stays as it is.
-/
theorem compile_preserves_context
    (settings : Settings)
    (session : Session)
    (source : String) :
    (∀ name, (session.context.get? name).isSome →
      ((session.compile settings source).1.context.get? name).isSome) ∧
    (∀ name, name ≠ textName → ¬ DeclaresIn source settings.strict name →
      (session.compile settings source).1.context.get? name = session.context.get? name) ∧
    (session.compile settings source).1.context.get? textName =
      some (.str (session.compile settings source).2) ∧
    ∀ cause, (session.build settings source).2 = .error cause →
      (session.build settings source).1.context = session.context := by
  obtain ⟨changes, bindsText⟩ := tryCompile_changesOnly settings session source
  have whole : session.context.ChangesOnly (Changes settings source)
        (session.compile settings source).1.context ∧
      (session.compile settings source).1.context.get? textName =
        some (.str (session.compile settings source).2) := by
    unfold compile
    split
    · rename_i text compiled
      rw [compiled] at changes bindsText
      exact ⟨changes, bindsText text rfl⟩
    · rename_i cause compiled
      rw [compiled] at changes
      exact ⟨bind_changesOnly changes (.str cause.page),
        (Table.get?_set _ _ _ _).trans (if_pos rfl)⟩
  refine ⟨whole.1.bound, fun name notText undeclared => ?_, whole.2,
    fun cause => context_build_of_error⟩
  exact whole.1.kept name fun changed => changed.elim notText undeclared

/-- A document whose filters cannot be read keeps what is bound, declared or not. -/
theorem compile_preserves_context_unreadableFilter :
    let settings : Settings := ⟨true, Template.basePageName, .empty, fun _ => false⟩
    let session : Session := ⟨⟨[("x", .int 1), ("a", .int 2)]⟩, .empty⟩
    let source := "-[filters]\nnone\n-[context]\na: list => [3]"
    (session.compile settings source).1.context.get? "x" = some (.int 1) ∧
      ((session.compile settings source).1.context.get? "a").isSome ∧
      (session.compile settings source).1.context.get? textName =
        some (.str (session.compile settings source).2) ∧
      (session.build settings source).2 = .error (unreadableFilter 1) ∧
      (session.build settings source).1.context = session.context := by
  intro settings session source
  have extracted : extract source true =
      .ok ⟨[("filters", "none"), ("context", "a: list => [3]")]⟩ := by cbv
  have undeclared : ¬ DeclaresIn source settings.strict "x" := by
    rintro ⟨blocks, block, isBlocks, isBlock, line, isLine, declares⟩
    obtain rfl := Except.ok.inj (extracted.symm.trans isBlocks)
    obtain rfl := Option.some.inj isBlock
    have lines : Text.lineLists "a: list => [3]".toList = ["a: list => [3]".toList] := by cbv
    rw [lines, List.mem_singleton] at isLine
    subst isLine
    obtain ⟨declaration, read, isName⟩ := (declares_iff 1).mp declares
    have onLine : declarationOnLine 1 "a: list => [3]".toList = .ok ⟨"a", .list, "[3]"⟩ := rfl
    obtain rfl := Except.ok.inj (onLine.symm.trans read)
    exact absurd isName (by decide)
  have fails : (session.build settings source).2 = .error (unreadableFilter 1) := by
    unfold build
    rw [extracted]
    rfl
  obtain ⟨bound, kept, text, unchanged⟩ := compile_preserves_context settings session source
  exact ⟨kept "x" (by decide) undeclared, bound "a" rfl, text, fails, unchanged _ fails⟩

end Session
end TemplatedMarkup
