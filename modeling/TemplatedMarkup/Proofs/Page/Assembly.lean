import TemplatedMarkup.Document.Block
import TemplatedMarkup.Page.Assembly
import TemplatedMarkup.Proofs.Document.Paragraph
import TemplatedMarkup.Proofs.Template.Source

/-!
# Assembled pages as templates

The source of a page is read as the template that the page stands for: the parent and the blocks
of the page, each with its content as a single text.
-/

namespace TemplatedMarkup

open Template

namespace Page

/-- What a page is made of can be told from the tags around it. -/
structure IsTaggable (page : Page) : Prop where
  /-- The name of the parent does not close its tag. -/
  parentCloses : ¬['%', '}'] <:+: page.parent.toList
  /-- The name of the parent leaves one kind of quotes free. -/
  parentQuotes : ¬('\'' ∈ page.parent.toList ∧ '"' ∈ page.parent.toList)
  /-- The names of the blocks are words. -/
  unbroken : ∀ block ∈ page.blocks, Text.IsUnbroken block.1.toList
  /-- The names of the blocks do not close their tags. -/
  nameCloses : ∀ block ∈ page.blocks, ¬['%', '}'] <:+: block.1.toList
  /-- The names of the blocks differ from each other. -/
  distinct : (page.blocks.map (·.1)).Nodup
  /-- The names of the blocks differ from that of the body. -/
  notBody : Document.bodyName ∉ page.blocks.map (·.1)
  /-- No delimiter opens in a block. -/
  content : ∀ block ∈ page.blocks, HasNoOpening block.2.toList
  /-- No delimiter opens in the body. -/
  body : HasNoOpening page.body.toList

/-- The template that a page stands for. -/
def template (page : Page) : Template where
  parent := some ⟨.literal (.str page.parent), []⟩
  nodes :=
    page.blocks.map (fun block => .block block.1 [.text s!" {block.2} "]) ++
      [.block Document.bodyName [.text (Document.linebreaks page.body)]]

/-- All blocks of a page, that of the body last, each with the text between its tags. -/
def texts (page : Page) : List (String × String) :=
  page.blocks.map (fun block => (block.1, s!" {block.2} ")) ++
    [(Document.bodyName, Document.linebreaks page.body)]

section Source

variable {page : Page}

theorem toList_blockTags (block : String × String) :
    (blockTags block).toList = blockSource block.1.toList (s!" {block.2} ").toList := by
  simp [blockTags, blockSource, endTag, DelimitedKind.source_tag, tagContent, toString]

theorem toList_bodyTags (body : String) :
    (s!"\x7b% block body %\x7d{body}\x7b% endblock %\x7d").toList =
      blockSource Document.bodyName.toList body.toList := by
  simp [Document.bodyName, blockSource, endTag, DelimitedKind.source_tag, tagContent, toString]

/-- The source of a page is the tag of the parent with the blocks behind it. -/
theorem toList_source (page : Page) :
    page.source.toList = (parentTag page.parent).toList ++
      page.texts.flatMap fun block => blockSource block.1.toList block.2.toList := by
  have blocks : (String.join (page.blocks.map blockTags)).toList =
      (page.blocks.map fun block => (block.1, s!" {block.2} ")).flatMap
        fun block => blockSource block.1.toList block.2.toList := by
    rw [String.toList_join, List.flatMap_map, List.flatMap_map]
    exact List.flatMap_congr fun block _ => toList_blockTags block
  rw [texts, List.flatMap_append, ← blocks, List.flatMap_singleton, ← toList_bodyTags]
  simp [source, toString]

/-- The tag of the parent holds its name between quotes. -/
theorem toList_parentTag (parent : String) :
    ∃ mark, (mark = '\'' ∨ mark = '"') ∧
      (mark ∈ parent.toList → '\'' ∈ parent.toList ∧ '"' ∈ parent.toList) ∧
      (parentTag parent).toList =
        DelimitedKind.tag.source (tagContent "extends".toList (quotedBy mark parent.toList)) := by
  by_cases hasQuote : '\'' ∈ parent.toList
  · refine ⟨'"', .inr rfl, fun among => ⟨hasQuote, among⟩, ?_⟩
    simp [parentTag, hasQuote, DelimitedKind.source_tag, tagContent, quotedBy, toString]
  · refine ⟨'\'', .inl rfl, fun among => absurd among hasQuote, ?_⟩
    simp [parentTag, hasQuote, DelimitedKind.source_tag, tagContent, quotedBy, toString]

/-- What has been read behind the tag of the parent. -/
def parentRead (parent : String) : Reading :=
  ⟨some ⟨.literal (.str parent), []⟩, true, [], [], []⟩

/-- The tag of the parent is read first. -/
theorem readSource_parentTag
    {parent : String}
    {rest : List Char}
    (closes : ¬['%', '}'] <:+: parent.toList)
    (quotes : ¬('\'' ∈ parent.toList ∧ '"' ∈ parent.toList)) :
    Reading.start.readSource 1 ((parentTag parent).toList ++ rest) =
      (parentRead parent).readSource (lineAfter 1 (parentTag parent).toList) rest := by
  obtain ⟨mark, isQuote, among, source⟩ := toList_parentTag parent
  have isWord : Text.IsUnbroken "extends".toList := by decide
  have absent : mark ∉ parent.toList := fun inside => quotes (among inside)
  have encloses : DelimitedKind.tag.Encloses
      (tagContent "extends".toList (quotedBy mark parent.toList)) :=
    DelimitedKind.encloses_tag
      (not_infix_tagContent (by decide) (not_infix_quotedBy isQuote closes))
  have read : Reading.start.readTag
      (tagContent "extends".toList (quotedBy mark parent.toList)) 1 =
        .ok { Reading.start with parent := some ⟨.literal (.str parent), []⟩ } := by
    rw [Reading.readTag_of_outermost rfl, firstWord_tagContent isWord,
      behindFirstWord_tagContent isWord (trimWhere_quotedBy isQuote)]
    change Reading.start.readParent (quotedBy mark parent.toList) 1 = _
    rw [Reading.readParent, readChain_quotedBy isQuote absent, String.ofList_toList]
    rfl
  rw [source, Reading.readSource_source encloses (Reading.readPiece_tag read)]
  rfl

theorem IsTaggable.isBlock
    (taggable : page.IsTaggable)
    {block : String × String}
    (among : block ∈ page.texts) :
    IsBlock block.1.toList block.2.toList := by
  rcases List.mem_append.mp among with inBlocks | isBody
  · obtain ⟨own, ownAmong, rfl⟩ := List.mem_map.mp inBlocks
    have spaced : (s!" {own.2} ").toList = ' ' :: (own.2.toList ++ [' ']) := by
      simp [toString]
    rw [spaced]
    refine ⟨taggable.unbroken own ownAmong, taggable.nameCloses own ownAmong,
      List.cons_ne_nil _ _, ?_, by simp [List.getLast?_cons]⟩
    have behind := (taggable.content own ownAmong).append
      (hasNoOpening_of_not_mem (show '{' ∉ [' '] by decide))
      fun _ kind => by cases kind <;> decide
    exact behind.cons fun isBrace => absurd isBrace (by decide)
  · obtain rfl := List.mem_singleton.mp isBody
    have unbroken : Text.IsUnbroken Document.bodyName.toList := by decide
    have closes : ¬['%', '}'] <:+: Document.bodyName.toList := by decide
    have last := Document.getLast?_linebreaks page.body
    refine ⟨unbroken, closes, fun isEmpty => ?_,
      Document.hasNoOpening_linebreaks taggable.body, by rw [last]; decide⟩
    rw [isEmpty] at last
    contradiction

/-- The source of a page is read up to its end. -/
theorem readSource_source
    (taggable : page.IsTaggable) :
    Reading.start.readSource 1 page.source.toList =
      .ok ((parentRead page.parent).addTextBlocks page.texts) := by
  have names : page.texts.map (·.1) = page.blocks.map (·.1) ++ [Document.bodyName] := by
    simp [texts]
  have distinct : (page.texts.map (·.1)).Nodup := by
    rw [names, List.nodup_append]
    refine ⟨taggable.distinct, by simp, fun name among other isBody => ?_⟩
    obtain rfl := List.mem_singleton.mp isBody
    exact ne_of_mem_of_not_mem among taggable.notBody
  rw [toList_source, readSource_parentTag taggable.parentCloses taggable.parentQuotes]
  exact Reading.readSource_blocks rfl (fun _ among => taggable.isBlock among) distinct
    fun _ _ => List.not_mem_nil

/-- The blocks of a page are those of its template. -/
theorem finish_texts (page : Page) :
    ((parentRead page.parent).addTextBlocks page.texts).finish = .ok page.template := by
  rw [Reading.finish_addTextBlocks rfl]
  simp [texts, template, parentRead]

end Source

/--
The source of a page is read as the template that the page stands for, if its parts can be told
from the tags around them.
-/
theorem parse_source
    {page : Page}
    (taggable : page.IsTaggable) :
    parse page.source = .ok page.template := by
  rw [Reading.parse_eq, readSource_source taggable]
  exact finish_texts page

set_option maxRecDepth 20000 in
/-- A page whose parent has an apostrophe in its name, with delimiters that are not opened. -/
theorem parse_source_apostrophe :
    let page : Page := ⟨"it's.html", [("a%", "%\x7d \x7b")], "1 \x7b\n\n%\x7d"⟩
    page.IsTaggable ∧ parse page.source = .ok
      ⟨some ⟨.literal (.str "it's.html"), []⟩,
        [.block "a%" [.text " %\x7d \x7b "],
          .block "body" [.text "<p>1 \x7b</p>\n\n<p>%\x7d</p>"]]⟩ := by
  intro page
  have taggable : page.IsTaggable := by
    refine ⟨by decide, by decide, ?_, ?_, by decide, by decide, ?_, ?_⟩
    · exact List.forall_mem_singleton.mpr (by decide)
    · exact List.forall_mem_singleton.mpr (by decide)
    · exact List.forall_mem_singleton.mpr fun kind => by cases kind <;> decide
    · exact fun kind => by cases kind <;> decide
  have body : Document.linebreaks page.body = "<p>1 \x7b</p>\n\n<p>%\x7d</p>" := by cbv
  refine ⟨taggable, (parse_source taggable).trans ?_⟩
  rw [template, body]
  rfl

end Page
end TemplatedMarkup
