import TemplatedMarkup.Proofs.Document.Comment
import TemplatedMarkup.Proofs.Document.Marker
import TemplatedMarkup.Proofs.Table
import TemplatedMarkup.Proofs.Text.Html
import TemplatedMarkup.Proofs.Text.Search

/-!
# Blocks written and read back

A block is written as its marker, its content and a line end.  What is written for blocks is split
into the same blocks again, as long as no name and no content is taken for a comment or a marker.
-/

namespace TemplatedMarkup
namespace Document

open Text

/-! ## Written blocks -/

/-- The line that opens a block. -/
def markerLine (name : List Char) : List Char :=
  '-' :: '[' :: (name ++ [']'])

/-- The text of a block: its marker and its content, each with a line end. -/
def blockText (block : String × String) : List Char :=
  markerLine block.1.toList ++ '\n' :: (block.2.toList ++ ['\n'])

/-- The text of blocks. -/
def textOfBlocks (blocks : List (String × String)) : String :=
  .ofList (blocks.flatMap blockText)

/-- A name that can be written in a marker. -/
structure IsBlockName (name : String) : Prop where
  nonempty : name ≠ ""
  trimmed : trim name = name
  /-- Neither the end of the marker nor that of its line stands in it. -/
  onMarker : ∀ character ∈ [']', '\n', '\r'], character ∉ name.toList
  noComment : ¬['/', '/'] <:+: name.toList

/-- A content that can be written behind a marker. -/
structure IsBlockContent (content : String) : Prop where
  trimmed : trim content = content
  noReturn : '\r' ∉ content.toList
  noComment : ¬['/', '/'] <:+: content.toList
  /-- No line starts like a marker. -/
  noMarker : ∀ line ∈ content.toList.splitOn '\n', ¬['-', '['] <+: line.dropWhile isIndent

/-- The lines of a block. -/
def blockLines (block : String × String) : List (List Char) :=
  markerLine block.1.toList :: block.2.toList.splitOn '\n'

/-- The text of lines that are all ended. -/
def endedLines (lines : List (List Char)) : List Char :=
  lines.flatMap (· ++ ['\n'])

/-! ## The lines of written blocks -/

section Lines

variable {block : String × String} {blocks : List (String × String)} {lines : List (List Char)}

theorem endedLines_eq_intercalate
    (nonempty : lines ≠ []) :
    endedLines lines = ['\n'].intercalate lines ++ ['\n'] := by
  induction lines with
  | nil => contradiction
  | cons line lines inductionHypothesis =>
      cases lines with
      | nil => simp [endedLines]
      | cons next lines =>
          have following := inductionHypothesis (List.cons_ne_nil _ _)
          rw [endedLines] at following ⊢
          rw [List.flatMap_cons, following, List.intercalate_cons_cons]
          simp

/-- The lines of a text in which every line is ended are those lines. -/
theorem lineLists_endedLines
    (oneLine : ∀ line ∈ lines, '\n' ∉ line)
    (noReturn : ∀ line ∈ lines, '\r' ∉ line) :
    lineLists (endedLines lines) = lines := by
  have pieces : (endedLines lines).splitOn '\n' = lines ++ [[]] := by
    clear noReturn
    induction lines with
    | nil => rfl
    | cons line lines inductionHypothesis =>
        rw [List.forall_mem_cons] at oneLine
        have split : endedLines (line :: lines) = line ++ '\n' :: endedLines lines := by
          simp [endedLines]
        rw [split, List.splitOn_append_cons_self_of_not_mem oneLine.1,
          inductionHypothesis oneLine.2]
        rfl
  have kept : lines.map dropCarriageReturn = lines := by
    refine (List.map_congr_left fun line among => ?_).trans (List.map_id lines)
    exact dropCarriageReturn_eq_self fun isLast =>
      noReturn line among (List.mem_of_getLast? isLast)
  rw [lineLists, pieces]
  simp [kept]

theorem blockText_eq_endedLines (block : String × String) :
    blockText block = endedLines (blockLines block) := by
  have content := @endedLines_eq_intercalate (block.2.toList.splitOn '\n')
    (List.splitOn_ne_nil _ _)
  rw [List.intercalate_splitOn, endedLines] at content
  rw [blockLines, endedLines, List.flatMap_cons, content, blockText]
  simp

theorem toList_textOfBlocks (blocks : List (String × String)) :
    (textOfBlocks blocks).toList = endedLines (blocks.flatMap blockLines) := by
  rw [textOfBlocks, String.toList_ofList, endedLines, List.flatMap_assoc]
  exact List.flatMap_congr fun block _ => blockText_eq_endedLines block

/-- The lines of a written block are single lines without carriage returns. -/
theorem not_mem_blockLines
    (isName : IsBlockName block.1)
    (isContent : IsBlockContent block.2)
    {line : List Char}
    (isLine : line ∈ blockLines block) :
    '\n' ∉ line ∧ '\r' ∉ line := by
  rcases List.mem_cons.mp isLine with rfl | isLine
  · have oneLine := isName.onMarker '\n' (by decide)
    have noReturn := isName.onMarker '\r' (by decide)
    simp [markerLine, oneLine, noReturn]
  · exact ⟨not_mem_of_mem_splitOn isLine, fun among =>
      isContent.noReturn (mem_of_mem_splitOn isLine among)⟩

/-- What is written for blocks has no comment. -/
theorem not_infix_textOfBlocks
    (areNames : ∀ block ∈ blocks, IsBlockName block.1)
    (areContents : ∀ block ∈ blocks, IsBlockContent block.2) :
    ¬['/', '/'] <:+: (textOfBlocks blocks).toList := by
  rw [textOfBlocks, String.toList_ofList]
  induction blocks with
  | nil => simp
  | cons block blocks inductionHypothesis =>
      rw [List.forall_mem_cons] at areNames areContents
      have spelled : (block :: blocks).flatMap blockText = "-[".toList ++ (block.1.toList ++
          ("]\n".toList ++ (block.2.toList ++ (['\n'] ++ blocks.flatMap blockText)))) := by
        simp [blockText, markerLine]
      rw [spelled]
      -- Brackets and line ends keep the slashes of names and contents apart.
      have behindContent : ¬['/', '/'] <:+: ['\n'] ++ blocks.flatMap blockText :=
        not_infix_append_of_pair (by decide) (inductionHypothesis areNames.2 areContents.2)
          (.inl (by decide))
      have fromContent := not_infix_append_of_pair areContents.1.noComment behindContent
        (.inr (by simp))
      have behindName := @not_infix_append_of_pair '/' '/' "]\n".toList _ (by decide) fromContent
        (.inl (by decide))
      have fromName := not_infix_append_of_pair areNames.1.noComment behindName (.inr (by simp))
      exact not_infix_append_of_pair (by decide) fromName (.inl (by decide))

end Lines

/-! ## Reading written blocks -/

section Reading

variable
  {strict : Bool}
  {number : Nat}
  {current : Option OpenBlock}
  {table : Blocks}
  {block : String × String}
  {blocks : List (String × String)}
  {lines rest : List (List Char)}

theorem Marker.ofLine_markerLine
    {name : String}
    (isName : IsBlockName name) :
    Marker.ofLine (markerLine name.toList) = .opening name.toList [] := by
  have closes : ']' ∉ name.toList := isName.onMarker ']' (by decide)
  have trimmed : trimWhere isBlank name.toList = name.toList := by
    simpa [trim] using congrArg String.toList isName.trimmed
  have nonempty : name.toList.isEmpty = false := by
    simpa using isName.nonempty
  have spelled : markerLine name.toList = '-' :: '[' :: (name.toList ++ ']' :: []) := rfl
  rw [spelled, Marker.ofLine_closed closes, trimmed, nonempty]
  rfl

/-- A line that does not start like a marker is content. -/
theorem Marker.ofLine_of_not_prefix
    {line : List Char}
    (noMarker : ¬['-', '['] <+: line.dropWhile isIndent) :
    Marker.ofLine line = .content := by
  unfold Marker.ofLine
  split
  · rename_i after starts
    exact absurd ⟨after, starts.symm⟩ noMarker
  · rfl

/-- Lines of content are added to the open block. -/
theorem readBlocks_append_content
    (areContent : ∀ line ∈ lines, Marker.ofLine line = .content)
    (open_ : OpenBlock) :
    readBlocks strict number (some open_) table (lines ++ rest) =
      readBlocks strict (number + lines.length) (some ⟨open_.name, lines.reverse ++ open_.lines⟩)
        table rest := by
  induction lines generalizing number open_ with
  | nil => rfl
  | cons line lines inductionHypothesis =>
      rw [List.forall_mem_cons] at areContent
      rw [List.cons_append, readBlocks, areContent.1]
      change readBlocks strict (number + 1) (some (open_.add line)) table (lines ++ rest) = _
      rw [inductionHypothesis areContent.2]
      simp [OpenBlock.add, Nat.add_assoc, Nat.add_comm 1]

/-- The lines of a block close the block before it and leave it open. -/
theorem readBlocks_append_blockLines
    (isName : IsBlockName block.1)
    (isContent : IsBlockContent block.2) :
    readBlocks strict number current table (blockLines block ++ rest) =
      readBlocks strict (number + (blockLines block).length)
        (some ⟨block.1.toList, (block.2.toList.splitOn '\n').reverse⟩)
        (OpenBlock.close current table) rest := by
  have areContent : ∀ line ∈ block.2.toList.splitOn '\n', Marker.ofLine line = .content :=
    fun line isLine => Marker.ofLine_of_not_prefix (isContent.noMarker line isLine)
  rw [blockLines, List.cons_append, readBlocks, Marker.ofLine_markerLine isName]
  simp only [OpenBlock.start, List.all_nil, if_true]
  rw [readBlocks_append_content areContent]
  simp [Nat.add_assoc, Nat.add_comm 1]

theorem close_content
    (isContent : IsBlockContent block.2) :
    OpenBlock.close (some ⟨block.1.toList, (block.2.toList.splitOn '\n').reverse⟩) table =
      table.set block.1 block.2 := by
  have trimmed : trimWhere isBlank block.2.toList = block.2.toList := by
    simpa [trim] using congrArg String.toList isContent.trimmed
  have joined : ['\n'].intercalate (block.2.toList.splitOn '\n') = block.2.toList :=
    List.intercalate_splitOn '\n'
  simp [OpenBlock.close, OpenBlock.content, joined, trimmed]

/-- The lines of blocks put these blocks into a table, one after the other. -/
theorem readBlocks_flatMap_blockLines
    (areNames : ∀ block ∈ blocks, IsBlockName block.1)
    (areContents : ∀ block ∈ blocks, IsBlockContent block.2) :
    readBlocks strict number current table (blocks.flatMap blockLines) =
      .ok ((OpenBlock.close current table).merge ⟨blocks⟩) := by
  induction blocks generalizing number current table with
  | nil => rfl
  | cons block blocks inductionHypothesis =>
      rw [List.forall_mem_cons] at areNames areContents
      rw [List.flatMap_cons, readBlocks_append_blockLines areNames.1 areContents.1,
        inductionHypothesis areNames.2 areContents.2, close_content areContents.1]
      rfl

/--
What is written for blocks is split into these blocks in either mode.  Of several blocks of one name
the place of the first one stays, and the content of the last one.
-/
theorem extract_textOfBlocks
    (areNames : ∀ block ∈ blocks, IsBlockName block.1)
    (areContents : ∀ block ∈ blocks, IsBlockContent block.2)
    (strict : Bool) :
    ∃ found, extract (textOfBlocks blocks) strict = .ok found ∧
      ((blocks.map (·.1)).Nodup → found.entries = blocks) ∧
      found.names = (blocks.map (·.1)).eraseDups ∧
      ∀ name, found.get? name = blocks.reverse.lookup name := by
  refine ⟨.ofList blocks, ?_, Table.entries_ofList, Table.names_ofList blocks,
    Table.get?_ofList blocks⟩
  have areLines : ∀ line ∈ blocks.flatMap blockLines, '\n' ∉ line ∧ '\r' ∉ line := by
    intro line isLine
    obtain ⟨block, isBlock, isLine⟩ := List.mem_flatMap.mp isLine
    exact not_mem_blockLines (areNames block isBlock) (areContents block isBlock) isLine
  rw [extract, stripCommentList_eq_self (not_infix_textOfBlocks areNames areContents),
    toList_textOfBlocks, lineLists_endedLines (fun line isLine => (areLines line isLine).1)
      fun line isLine => (areLines line isLine).2]
  exact readBlocks_flatMap_blockLines areNames areContents

/-- A name that comes twice, and marks that would begin a marker or a comment elsewhere. -/
theorem extract_textOfBlocks_repeated :
    let blocks := [("a", "1"), ("[b:/", "x: -[y]\n\n /z"), ("a", "")]
    (∀ block ∈ blocks, IsBlockName block.1) ∧ (∀ block ∈ blocks, IsBlockContent block.2) ∧
      ∃ found, extract "-[a]\n1\n-[[b:/]\nx: -[y]\n\n /z\n-[a]\n\n" true = .ok found ∧
        found.names = ["a", "[b:/"] ∧ found.get? "a" = some "" := by
  intro blocks
  have areNames : ∀ block ∈ blocks, IsBlockName block.1 := by
    simp only [blocks, List.forall_mem_cons]
    refine ⟨?_, ?_, ?_, nofun⟩ <;> exact ⟨by decide, by cbv, by simp, by decide⟩
  have areContents : ∀ block ∈ blocks, IsBlockContent block.2 := by
    have pieces : "x: -[y]\n\n /z".toList.splitOn '\n' = ["x: -[y]".toList, [], " /z".toList] := rfl
    simp only [blocks, List.forall_mem_cons]
    refine ⟨⟨by cbv, by simp, by decide, ?_⟩, ⟨by cbv, by simp, by decide, ?_⟩,
      ⟨by cbv, by simp, by decide, ?_⟩, nofun⟩
    · rw [show "1".toList.splitOn '\n' = ["1".toList] from rfl]
      decide
    · rw [pieces]
      decide
    · rw [show "".toList.splitOn '\n' = [[]] from rfl]
      decide
  obtain ⟨found, extracted, -, names, entries⟩ := extract_textOfBlocks areNames areContents true
  exact ⟨areNames, areContents, found, extracted, names, entries "a"⟩

end Reading

end Document
end TemplatedMarkup
