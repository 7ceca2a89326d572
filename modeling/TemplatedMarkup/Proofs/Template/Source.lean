import TemplatedMarkup.Proofs.Template.Piece
import TemplatedMarkup.Proofs.Template.Tag
import TemplatedMarkup.Template.Parser

/-!
# Reading a source in parts

A source is read from its start on, so what has been read of its first tags is where the reading of
the rest starts.
-/

namespace TemplatedMarkup
namespace Template

/-- The end tag of a block. -/
def endTag : List Char :=
  DelimitedKind.tag.source " endblock ".toList

/-- A block with something between its tags, as it is written. -/
def blockSource (name inside : List Char) : List Char :=
  DelimitedKind.tag.source (tagContent "block".toList name) ++ (inside ++ endTag)

/-- A name and a text make a block: the tags of the block end where they should. -/
structure IsBlock (name text : List Char) : Prop where
  /-- The name has no blank. -/
  unbroken : Text.IsUnbroken name
  /-- The name does not close its tag. -/
  closes : ¬['%', '}'] <:+: name
  /-- There is a text. -/
  nonempty : text ≠ []
  /-- No delimiter opens in the text. -/
  noOpening : HasNoOpening text
  /-- No delimiter opens between the text and the end tag. -/
  last : text.getLast? ≠ some '{'

namespace Reading

variable {reading next : Reading} {line : Nat} {content text rest : List Char}

/-- Read the rest of a source, which starts on a line. -/
def readSource (reading : Reading) (line : Nat) (source : List Char) :
    Except TemplateError Reading :=
  (cutFrom line [] source).foldlM readPiece reading

theorem parse_eq (source : String) :
    parse source = start.readSource 1 source.toList >>= finish := rfl

theorem readSource_nil : reading.readSource line [] = .ok reading := by
  rw [readSource, cutFrom]
  rfl

/-- Add a text, unless it is empty. -/
def addText (reading : Reading) (text : List Char) : Reading :=
  if text.isEmpty then reading else reading.add (.text (.ofList text))

theorem foldlM_textPiece (reading : Reading) (line : Nat) (text : List Char) :
    (textPiece line text).foldlM readPiece reading = .ok (reading.addText text) := by
  unfold textPiece addText
  split <;> rfl

/-- A text is read before what is between delimiters behind it. -/
theorem readSource_text
    {kind : DelimitedKind}
    (noOpening : HasNoOpening text)
    (last : text.getLast? ≠ some '{')
    (encloses : kind.Encloses content) :
    reading.readSource line (text ++ (kind.source content ++ rest)) =
      (reading.addText text).readSource (lineAfter line text) (kind.source content ++ rest) := by
  rw [readSource, cutFrom_append_source noOpening last encloses, List.foldlM_append,
    foldlM_textPiece]
  rfl

/-- A text at the end of a source is read last. -/
theorem readSource_text_end
    (noOpening : HasNoOpening text)
    (last : text.getLast? ≠ some '{') :
    reading.readSource line text = .ok (reading.addText text) := by
  have cut : cutFrom line [] text = textPiece line text := by
    have kept := @cutFrom_append line [] text noOpening last []
    rw [List.append_nil, List.append_nil, cutFrom, List.reverse_reverse] at kept
    exact kept
  rw [readSource, cut, foldlM_textPiece]

/-- What is between delimiters is the first piece of a source. -/
theorem readSource_source_eq_bind
    {kind : DelimitedKind}
    (encloses : kind.Encloses content) :
    reading.readSource line (kind.source content ++ rest) = (do
      let next ← reading.readPiece ⟨.delimited kind, content, line⟩
      next.readSource (lineAfter line (kind.source content)) rest) := by
  rw [readSource, cutFrom_source encloses]
  exact List.foldlM_cons

/-- What is between delimiters is read before the rest of a source. -/
theorem readSource_source
    {kind : DelimitedKind}
    (encloses : kind.Encloses content)
    (read : reading.readPiece ⟨.delimited kind, content, line⟩ = .ok next) :
    reading.readSource line (kind.source content ++ rest) =
      next.readSource (lineAfter line (kind.source content)) rest := by
  rw [readSource_source_eq_bind encloses, read]
  rfl

theorem readPiece_tag
    (read : reading.readTag content line = .ok next) :
    reading.readPiece ⟨.delimited .tag, content, line⟩ = .ok next.begin := by
  rw [readPiece, read]
  rfl

/-- Delimiters without a line feed between them do not change the line. -/
theorem readSource_source_of_oneLine
    {kind : DelimitedKind}
    (encloses : kind.Encloses content)
    (oneLine : '\n' ∉ content)
    (read : reading.readPiece ⟨.delimited kind, content, line⟩ = .ok next) :
    reading.readSource line (kind.source content ++ rest) = next.readSource line rest := by
  rw [readSource_source encloses read, DelimitedKind.lineAfter_source, lineAfter,
    List.count_eq_zero_of_not_mem oneLine, Nat.add_zero]

/-- A tag that ends nothing starts something. -/
theorem readTag_tagContent
    {word arguments : List Char}
    (unbroken : Text.IsUnbroken word)
    (trimmed : Text.trimWhere Text.isBlank arguments = arguments)
    (noEnd : ∀ opened : OpenTag, String.ofList word ∉ opened.ends) :
    reading.readTag (tagContent word arguments) line =
      reading.readStart (.ofList word) arguments line := by
  rw [readTag, firstWord_tagContent unbroken, behindFirstWord_tagContent unbroken trimmed]
  split
  · rfl
  · rw [if_neg (by simpa using noEnd _)]

/-! ## Blocks -/

section Block

variable {name : List Char}

/-- A tag outside all others starts something. -/
theorem readTag_of_outermost
    (outermost : reading.levels = []) :
    reading.readTag content line =
      reading.readStart (.ofList (firstWord content)) (behindFirstWord content) line := by
  rw [readTag, outermost]

/-- What has been read once a block is open. -/
def inBlock (reading : Reading) (name : String) : Reading :=
  { reading with blockNames := name :: reading.blockNames }.push (.block name)

theorem openBlock_of_new
    (unbroken : Text.IsUnbroken name)
    (new : String.ofList name ∉ reading.blockNames) :
    reading.openBlock name line =
      .ok (reading.inBlock (.ofList name)) := by
  have noBlank : name.any Text.isBlank = false := by simpa using unbroken.noBlank
  have isFree : reading.blockNames.contains (.ofList name) = false := by simpa using new
  rw [openBlock, noBlank, isFree]
  simp [unbroken.nonempty, inBlock]

/-- The tag of a block opens it. -/
theorem readTag_block
    (outermost : reading.levels = [])
    (unbroken : Text.IsUnbroken name)
    (new : String.ofList name ∉ reading.blockNames) :
    reading.readTag (tagContent "block".toList name) line =
      .ok (reading.inBlock (.ofList name)) := by
  have isBlock : Text.IsUnbroken "block".toList := by decide
  rw [readTag_of_outermost outermost, firstWord_tagContent isBlock,
    behindFirstWord_tagContent isBlock unbroken.trimWhere_eq]
  exact openBlock_of_new unbroken new

/-- An end tag closes the innermost block. -/
theorem readTag_endblock
    {blockName : String}
    {before : List Node}
    {outer : List Level}
    (innermost : reading.levels = ⟨.block blockName, before⟩ :: outer) :
    reading.readTag " endblock ".toList line =
      .ok { reading with
        levels := outer, nodes := .block blockName reading.nodes.reverse :: before } := by
  have word : firstWord " endblock ".toList = "endblock".toList := by decide
  have nothing : behindFirstWord " endblock ".toList = [] := by decide
  rw [readTag, word, nothing, innermost]
  rfl

/-- What has been read once a block with some nodes is closed. -/
def addBlock (reading : Reading) (name : String) (nodes : List Node) : Reading :=
  { reading with
    started := true
    blockNames := name :: reading.blockNames
    nodes := .block name nodes :: reading.nodes }

/-- A block whose name is new is read with the nodes that are read between its tags. -/
theorem readSource_block
    {inside : List Char}
    {nodes : List Node}
    (outermost : reading.levels = [])
    (new : String.ofList name ∉ reading.blockNames)
    (unbroken : Text.IsUnbroken name)
    (closes : ¬['%', '}'] <:+: name)
    (reads : ∀ line, (reading.inBlock (.ofList name)).begin.readSource line
        (inside ++ (endTag ++ rest)) =
      { (reading.inBlock (.ofList name)).begin with nodes := nodes.reverse }.readSource
        (lineAfter line inside) (endTag ++ rest)) :
    reading.readSource line (blockSource name inside ++ rest) =
      (reading.addBlock (.ofList name) nodes).readSource
        (lineAfter line (blockSource name inside)) rest := by
  have encloses : DelimitedKind.tag.Encloses (tagContent "block".toList name) :=
    DelimitedKind.encloses_tag (not_infix_tagContent (by decide) closes)
  have opened := readPiece_tag (@readTag_block reading line name outermost unbroken new)
  have closed (line : Nat) := readPiece_tag (@readTag_endblock
    { (reading.inBlock (.ofList name)).begin with nodes := nodes.reverse } line _ _ _ rfl)
  simp only [blockSource, List.append_assoc, lineAfter_append]
  rw [readSource_source encloses opened, reads, endTag,
    readSource_source (DelimitedKind.encloses_tag (by decide)) (closed _)]
  simp only [begin, inBlock, push, addBlock, outermost, List.reverse_reverse]

/-- A block with a text is read first, if its name is new. -/
theorem readSource_textBlock
    (outermost : reading.levels = [])
    (new : String.ofList name ∉ reading.blockNames)
    (isBlock : IsBlock name text) :
    reading.readSource line (blockSource name text ++ rest) =
      (reading.addBlock (.ofList name) [.text (.ofList text)]).readSource
        (lineAfter line (blockSource name text)) rest := by
  refine readSource_block outermost new isBlock.unbroken isBlock.closes fun line => ?_
  rw [endTag, readSource_text isBlock.noOpening isBlock.last
    (DelimitedKind.encloses_tag (by decide)), addText, if_neg (by simpa using isBlock.nonempty)]
  rfl

/-- What has been read once blocks with a text each are closed. -/
def addTextBlocks (reading : Reading) (blocks : List (String × String)) : Reading :=
  blocks.foldl (fun reading block => reading.addBlock block.1 [.text block.2]) reading

/-- Blocks behind each other are read one after the other. -/
theorem readSource_blocks
    {blocks : List (String × String)}
    (outermost : reading.levels = [])
    (areBlocks : ∀ block ∈ blocks, IsBlock block.1.toList block.2.toList)
    (distinct : (blocks.map (·.1)).Nodup)
    (new : ∀ block ∈ blocks, block.1 ∉ reading.blockNames) :
    reading.readSource line
        (blocks.flatMap fun block => blockSource block.1.toList block.2.toList) =
      .ok (reading.addTextBlocks blocks) := by
  induction blocks generalizing reading line with
  | nil => exact readSource_nil
  | cons block blocks inductionHypothesis =>
      rw [List.forall_mem_cons] at areBlocks new
      rw [List.map_cons, List.nodup_cons] at distinct
      have isNew : String.ofList block.1.toList ∉ reading.blockNames := by
        rw [String.ofList_toList]
        exact new.1
      have newBehind : ∀ other ∈ blocks,
          other.1 ∉ (reading.addBlock block.1 [.text block.2]).blockNames := by
        intro other among
        have different : other.1 ≠ block.1 := fun same =>
          distinct.1 (same ▸ List.mem_map_of_mem among)
        exact List.not_mem_cons_of_ne_of_not_mem different (new.2 other among)
      rw [List.flatMap_cons, readSource_textBlock outermost isNew areBlocks.1,
        String.ofList_toList, String.ofList_toList]
      exact inductionHypothesis outermost areBlocks.2 distinct.2 newBehind

/-- The blocks that have been read are those of the template, in order. -/
theorem finish_addTextBlocks
    (outermost : reading.levels = [])
    (blocks : List (String × String)) :
    (reading.addTextBlocks blocks).finish =
      .ok ⟨reading.parent,
        reading.nodes.reverse ++ blocks.map fun block => .block block.1 [.text block.2]⟩ := by
  induction blocks generalizing reading with
  | nil => simp [addTextBlocks, finish, outermost]
  | cons block blocks inductionHypothesis =>
      refine (@inductionHypothesis (reading.addBlock block.1 [.text block.2]) outermost).trans ?_
      simp [addBlock]

end Block

end Reading
end Template
end TemplatedMarkup
