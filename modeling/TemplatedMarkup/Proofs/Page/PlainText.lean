import TemplatedMarkup.Page.Compile
import TemplatedMarkup.Proofs.Document.PlainText
import TemplatedMarkup.Proofs.Page.Assembly
import TemplatedMarkup.Proofs.Table
import TemplatedMarkup.Proofs.Template.BasePage
import TemplatedMarkup.Proofs.Template.Lineage

/-!
# Documents of plain text

A document without marks has no blocks and no markup.  Its text goes in paragraphs into the body of
the base page.
-/

namespace TemplatedMarkup

open Template

/-- The characters that mean something in a document or in a template. -/
def reservedMarks : List Char :=
  ['#', '*', '_', '-', '[', '\\', '{']

/-- A document without blocks as a page. -/
def plainPage (source : String) : Page :=
  ⟨basePageName, [], source⟩

section Rendering

variable {library : Library} {source : String} {scope : Scope} {surroundings : Surroundings}

theorem isTaggable_plainPage
    (noBrace : '{' ∉ source.toList) :
    (plainPage source).IsTaggable where
  parentCloses := show ¬['%', '}'] <:+: basePageName.toList by decide
  parentQuotes := show ¬('\'' ∈ basePageName.toList ∧ '"' ∈ basePageName.toList) by decide
  unbroken := by simp [plainPage]
  nameCloses := by simp [plainPage]
  distinct := List.nodup_nil
  notBody := List.not_mem_nil
  content := by simp [plainPage]
  body := hasNoOpening_of_not_mem noBrace

theorem loadChecked_basePageName
    (loaded : library.load basePageName = .ok basePage) :
    loadChecked library .empty basePageName = .ok baseTemplate :=
  loadChecked_eq_ok loaded parse_basePage checkFilters_baseTemplate

/-- The only ancestor of a page without blocks is the base page. -/
theorem ancestorsFrom_plainPage
    (loaded : library.load basePageName = .ok basePage) :
    ancestorsFrom library .empty scope maxAncestors [] (plainPage source).template =
      .ok [baseTemplate] := by
  have isNamed : FilterChain.eval .empty scope ⟨.literal (.str basePageName), []⟩ =
      .ok ⟨.str basePageName, true⟩ := rfl
  exact ancestorsFrom_eq_ok_iff.mpr ⟨[basePageName],
    .derived rfl isNamed (loadChecked_basePageName loaded) (.root rfl), by simp [maxAncestors]⟩

/-- Behind a page without blocks, the base page has its paragraphs in the body. -/
theorem renderLineage_plainPage
    (noFilters : surroundings.registry = .empty)
    (untitled : scope "title" = none) :
    renderLineage surroundings (fun _ => none) (plainPage source).template [baseTemplate] scope =
      .ok (basePageWith "" "" (Document.linebreaks source)) := by
  have noTitle : (plainPage source).template.overrides surroundings (fun _ => none) "title" =
      none := rfl
  have noHead : (plainPage source).template.overrides surroundings (fun _ => none) "head" =
      none := rfl
  have body : (plainPage source).template.overrides surroundings (fun _ => none) "body" =
      some (Node.renderAll surroundings (fun _ => none)
        [.text (Document.linebreaks source)]) := rfl
  refine renderAll_baseTemplate ?_ ?_ ?_
  · rw [Node.render_block_of_none noTitle, Node.renderAll, Node.render, noFilters,
      eval_titleChain untitled]
    rfl
  · rw [Node.render_block_of_none noHead]
    rfl
  · rw [Node.render_block_of_some body]
    simp [Node.renderAll, Node.render, bind, Except.bind, pure, Except.pure]

/-- A page without blocks is shown as the base page. -/
theorem renderSource_plainPage
    {context : Context}
    (noBrace : '{' ∉ source.toList)
    (loaded : library.load basePageName = .ok basePage)
    (untitled : context.get? "title" = none) :
    renderSource library .empty (plainPage source).source context =
      .ok (basePageWith "" "" (Document.linebreaks source)) := by
  have parsed : parse (plainPage source).source = .ok (plainPage source).template := by
    rw [Reading.parse_eq, Page.readSource_source (isTaggable_plainPage noBrace)]
    exact Page.finish_texts (plainPage source)
  have checked : checkFilters .empty (plainPage source).template = .ok () := rfl
  rw [renderSource, parsed]
  exact (renderWithin_eq_renderLineage checked (ancestorsFrom_plainPage loaded)).trans
    (renderLineage_plainPage rfl untitled)

end Rendering

namespace Session

/-- A document without marks is the page of its text. -/
theorem build_plainText
    {settings : Settings}
    {session : Session}
    {source : String}
    (plain : ∀ mark ∈ reservedMarks, mark ∉ source.toList)
    (defaultParent : settings.defaultParent = basePageName) :
    session.build settings source = (session, .ok (plainPage source)) := by
  have extracted := Document.extract_eq_empty (plain '-' (by decide)) settings.strict
  have body : Document.transform (Document.joinContinuations source) settings.isImage =
      source := by
    rw [Document.joinContinuations_eq_self (plain '\\' (by decide))]
    exact Document.transform_eq_self (plain '#' (by decide)) (plain '*' (by decide))
      (plain '_' (by decide)) (plain '-' (by decide)) (plain '[' (by decide)) settings.isImage
  have page : assemble settings source .empty = plainPage source := by
    simp only [assemble, Table.get?_empty, Option.getD_none, body, defaultParent]
    rfl
  rw [build, extracted]
  simp only [Table.get?_empty, register, declare, page]

/-- A document without marks is compiled to the base page with its text in paragraphs. -/
theorem tryCompile_plainText
    {settings : Settings}
    {session : Session}
    {source : String}
    (plain : ∀ mark ∈ reservedMarks, mark ∉ source.toList)
    (untitled : session.context.get? "title" = none)
    (defaultParent : settings.defaultParent = basePageName)
    (noFile : settings.library.file? basePageName = none)
    (notAdded : settings.library.added.get? basePageName = none)
    (noFilters : session.registry = .empty) :
    let text := basePageWith "" "" (Document.linebreaks source)
    session.tryCompile settings source = (session.bind textName (.str text), .ok text) := by
  have loaded : settings.library.load basePageName = .ok basePage := by
    rw [Library.load, noFile, notAdded]
    rfl
  have rendered := renderSource_plainPage (plain '{' (by decide)) loaded untitled
  simp only [tryCompile, build_plainText plain defaultParent, render, noFilters, rendered]
  rfl

/--
A document without marks becomes the base page with nothing as its title, nothing else in its head
and its text in paragraphs as its body, and the page is bound as the text of the document.
-/
theorem compile_plainText
    {settings : Settings}
    {session : Session}
    {source : String}
    (plain : ∀ mark ∈ reservedMarks, mark ∉ source.toList)
    (untitled : session.context.get? "title" = none)
    (defaultParent : settings.defaultParent = basePageName)
    (noFile : settings.library.file? basePageName = none)
    (notAdded : settings.library.added.get? basePageName = none)
    (noFilters : session.registry = .empty) :
    basePage = basePageWith titleSource headSource bodySource ∧
      let text := basePageWith "" "" (Document.linebreaks source)
      session.compile settings source = (session.bind textName (.str text), text) := by
  have compiled := tryCompile_plainText plain untitled defaultParent noFile notAdded noFilters
  exact ⟨basePage_eq, by simp only [compile, compiled]⟩

set_option maxRecDepth 20000 in
/-- Two paragraphs of text with a quote, an element, an end of a tag and an end of a comment. -/
theorem compile_plainText_element :
    let settings : Settings := ⟨true, basePageName, .empty, fun _ => true⟩
    let session : Session := ⟨.ofList [("x", .int 1)], .empty⟩
    let source := "it's <b> // 1\r\n\n%\x7d"
    let text := basePageWith "" "" "<p>it's <b> // 1</p>\n\n<p>%\x7d</p>"
    (∀ mark ∈ reservedMarks, mark ∉ source.toList) ∧
      session.context.get? "title" = none ∧
      settings.library.file? basePageName = none ∧
      settings.library.added.get? basePageName = none ∧
      session.compile settings source = (session.bind textName (.str text), text) := by
  intro settings session source text
  have plain : ∀ mark ∈ reservedMarks, mark ∉ source.toList := by simp [reservedMarks, source]
  have untitled : session.context.get? "title" = none := by decide
  have noFile : settings.library.file? basePageName = none := by decide
  have notAdded : settings.library.added.get? basePageName = none := by decide
  have paragraphs :
      Document.linebreaks source = "<p>it's <b> // 1</p>\n\n<p>%\x7d</p>" := by cbv
  have compiled := (compile_plainText plain untitled rfl noFile notAdded rfl).2
  rw [paragraphs] at compiled
  exact ⟨plain, untitled, noFile, notAdded, compiled⟩

end Session

end TemplatedMarkup
