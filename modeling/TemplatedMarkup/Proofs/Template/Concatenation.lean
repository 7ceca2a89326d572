import TemplatedMarkup.Proofs.Template.CutSource
import TemplatedMarkup.Proofs.Template.Filling
import TemplatedMarkup.Proofs.Template.KnownFilter
import TemplatedMarkup.Proofs.Template.Lineage
import TemplatedMarkup.Proofs.Template.Position
import TemplatedMarkup.Proofs.Template.Stacked

/-!
# Sources behind each other

A source that closes its delimiters and its tags is shown as it is with another source behind it,
and so is the other one, unless both have a block of the same name.
-/

namespace TemplatedMarkup
namespace Template

/-- Every delimiter that opens in a source is closed in it. -/
def ClosesDelimiters (source : String) : Prop :=
  ∀ piece ∈ pieces source, piece.kind = .text → HasNoOpening piece.content

/-! ## Pieces -/

section Pieces

variable {line : Nat} {source : List Char} {pieces : List Piece}

theorem lineAfter_nil (line : Nat) : lineAfter line [] = line := rfl

/-- A source that closes its delimiters is cut as it is, up to the text that it ends with. -/
theorem Cuts.exists_append
    (cuts : Cuts line source pieces)
    (closed : ∀ piece ∈ pieces, piece.kind = .text → HasNoOpening piece.content)
    (last : source.getLast? ≠ some '{') :
    ∃ done start text, pieces = done ++ textPiece start text ∧
      ∀ behind, cutFrom line [] (source ++ behind) = done ++ cutFrom start text.reverse behind := by
  induction cuts with
  | @rest line text _ =>
      have noOpening : HasNoOpening text := by
        cases text with
        | nil => exact hasNoOpening_of_not_mem List.not_mem_nil
        | cons character text =>
            exact closed _ (mem_textPiece.mpr ⟨List.cons_ne_nil _ _, rfl⟩) rfl
      refine ⟨[], line, text, rfl, fun behind => ?_⟩
      rw [cutFrom_append noOpening last, List.append_nil]
      rfl
  | @delimited line text content after kind pieces noOpening notBrace encloses _
      inductionHypothesis =>
      have lastBehind : after.getLast? ≠ some '{' := by
        intro isLast
        simp [isLast] at last
      obtain ⟨done, start, ending, rfl, cut⟩ := inductionHypothesis
        (fun piece among => closed piece (mem_delimited.mpr (.inr (.inr among)))) lastBehind
      refine ⟨textPiece line text ++ ⟨.delimited kind, content, lineAfter line text⟩ :: done,
        start, ending, by simp, fun behind => ?_⟩
      rw [List.append_assoc, List.append_assoc, cutFrom_append_source noOpening notBrace encloses,
        cutFrom_source encloses, List.reverse_nil, lineAfter_nil, cut]
      simp [textPiece]

theorem unplaced_textPiece (line other : Nat) (text : List Char) :
    (textPiece line text).map Piece.unplaced = (textPiece other text).map Piece.unplaced := by
  cases text <;> rfl

/-- A text in front of a source only prolongs the text that the source starts with. -/
theorem exists_cutFrom_eq (line : Nat) (text source : List Char) :
    ∃ start rest, cutFrom line text source = textPiece line (text.reverse ++ start) ++ rest ∧
      ∀ other passed, ∃ moved,
        cutFrom other passed source = textPiece other (passed.reverse ++ start) ++ moved ∧
          moved.map Piece.unplaced = rest.map Piece.unplaced := by
  fun_induction cutFrom line text source with
  | case1 line text =>
      refine ⟨[], [], by simp, fun other passed => ⟨[], ?_, rfl⟩⟩
      simp [cutFrom]
  | case2 line text character rest closed inductionHypothesis =>
      obtain ⟨start, pieces, cut, moves⟩ := inductionHypothesis
      refine ⟨character :: start, pieces, by simpa using cut, fun other passed => ?_⟩
      obtain ⟨moved, cutMoved, same⟩ := moves other (character :: passed)
      refine ⟨moved, ?_, same⟩
      rw [cutFrom_of_opened_none closed, cutMoved]
      simp
  | case3 line text character rest kind inside opens notClosed =>
      refine ⟨character :: rest, [], by simp, fun other passed => ⟨[], ?_, rfl⟩⟩
      rw [cutFrom]
      split
      · rename_i closed
        rw [closed] at opens
        contradiction
      · rename_i found isFound
        rw [opens] at isFound
        obtain ⟨rfl, rfl⟩ := Prod.mk.inj (Option.some.inj isFound)
        rw [notClosed, List.append_nil]
  | case4 line text character rest kind inside opens content after closes lineOfTag
      inductionHypothesis =>
      have encloses := DelimitedKind.encloses_of_close? closes
      have whole : character :: rest = kind.source content ++ after :=
        (eq_of_opened? opens).trans (DelimitedKind.source_append_of_close? closes)
      obtain ⟨start, pieces, cut, moves⟩ := inductionHypothesis
      refine ⟨[], ⟨.delimited kind, content, lineOfTag⟩ ::
        cutFrom (lineAfter lineOfTag content) [] after, by rw [List.append_nil],
        fun other passed => ?_⟩
      let moved := lineAfter (lineAfter other passed) (kind.source content)
      obtain ⟨piecesMoved, cutMoved, same⟩ := moves moved []
      refine ⟨⟨.delimited kind, content, lineAfter other passed⟩ :: cutFrom moved [] after,
        by rw [whole, cutFrom_source encloses, List.append_nil], ?_⟩
      rw [cut, cutMoved, List.map_cons, List.map_cons, List.map_append, List.map_append, same,
        unplaced_textPiece moved (lineAfter lineOfTag content)]
      rfl

/-- The pieces of two sources behind each other; texts that meet are one. -/
theorem exists_pieces_append
    {front behind : String}
    (closed : ClosesDelimiters front)
    (last : front.toList.getLast? ≠ some '{') :
    ∃ done line text start rest moved,
      Template.pieces front = done ++ textPiece line text ∧
      Template.pieces behind = textPiece 1 start ++ rest ∧
      Template.pieces (front ++ behind) = done ++ (textPiece line (text ++ start) ++ moved) ∧
      moved.map Piece.unplaced = rest.map Piece.unplaced := by
  obtain ⟨done, line, text, cutFront, cut⟩ :=
    (cuts_cutFrom 1 front.toList).exists_append closed last
  obtain ⟨start, rest, cutBehind, moves⟩ := exists_cutFrom_eq 1 [] behind.toList
  obtain ⟨moved, cutMoved, same⟩ := moves line text.reverse
  refine ⟨done, line, text, start, rest, moved, cutFront, cutBehind, ?_, same⟩
  rw [Template.pieces, String.toList_append, cut, cutMoved, List.reverse_reverse]

end Pieces

/-! ## Reading -/

/-- The node of a text, unless it is empty. -/
def textNodes (text : List Char) : List Node :=
  if text.isEmpty then [] else [.text (.ofList text)]

theorem reverse_textNodes (text : List Char) : (textNodes text).reverse = textNodes text := by
  cases text <;> rfl

namespace Reading

variable {reading : Reading}

theorem addText_eq (text : List Char) :
    reading.addText text = { reading with nodes := textNodes text ++ reading.nodes } := by
  cases text <;> rfl

/-- A template has been read when no tag is open. -/
theorem finish_eq_ok_iff
    {template : Template} :
    reading.finish = .ok template ↔
      reading.levels = [] ∧ template = ⟨reading.parent, reading.nodes.reverse⟩ := by
  unfold finish
  cases reading.levels with
  | nil => simp [eq_comm]
  | cons level outer => simp

end Reading

/-- What has been read of a source that is a template. -/
theorem exists_reading_of_parse
    {source : String}
    {template : Template}
    (parsed : parse source = .ok template) :
    ∃ reading, (pieces source).foldlM Reading.readPiece .start = .ok reading ∧
      reading.levels = [] ∧ template = ⟨reading.parent, reading.nodes.reverse⟩ := by
  obtain ⟨reading, folded, finished⟩ := exists_of_bind_eq_ok parsed
  exact ⟨reading, folded, Reading.finish_eq_ok_iff.mp finished⟩

/-- The names of the blocks of a template that is read are different. -/
theorem nodup_blockNames
    {source : String}
    {template : Template}
    (parsed : parse source = .ok template) :
    (blockNames source).Nodup := by
  obtain ⟨reading, folded, -⟩ := exists_reading_of_parse parsed
  have distinct : reading.IsDistinct :=
    Gives.foldlM (fun _ _ _ distinct _ read => distinct.readPiece read) Reading.isDistinct_start
      reading folded
  have noted := distinct.nodup
  rw [(Reading.notes_of_foldlM_readPiece folded).1] at noted
  simpa [Reading.start, blockNames] using noted

/-- The words of the tags of a source are those of its pieces. -/
theorem mem_tagNames_iff {source tag : String} :
    tag ∈ tagNames source ↔ some tag ∈ (pieces source).map Piece.tagName? := by
  rw [tagNames, List.mem_filterMap, List.mem_map]

/-- A text has no part in what is noted of tags. -/
theorem filterMap_blockName?_textPiece (line : Nat) (text : List Char) :
    (textPiece line text).filterMap Piece.blockName? = [] := by
  cases text <;> rfl

/-- The name that a tag gives does not depend on the line of the tag. -/
theorem filterMap_blockName?_eq
    {pieces moved : List Piece}
    (same : moved.map Piece.unplaced = pieces.map Piece.unplaced) :
    moved.filterMap Piece.blockName? = pieces.filterMap Piece.blockName? := by
  have sameNames := congrArg (List.filterMap fun (kind, content) =>
    Piece.blockName? ⟨kind, content, 0⟩) same
  rwa [List.filterMap_map, List.filterMap_map] at sameNames

section Append

variable {front behind : String} {first second : Template}

/-- The tags of blocks of two sources behind each other. -/
theorem blockNames_append
    (closed : ClosesDelimiters front)
    (last : front.toList.getLast? ≠ some '{') :
    blockNames (front ++ behind) = blockNames front ++ blockNames behind := by
  obtain ⟨done, line, text, other, rest, moved, cutFront, cutBehind, cut, same⟩ :=
    @exists_pieces_append front behind closed last
  rw [blockNames, cut, blockNames, cutFront, blockNames, cutBehind]
  simp only [List.filterMap_append, filterMap_blockName?_textPiece, filterMap_blockName?_eq same,
    List.nil_append, List.append_nil]

/-- What has been read of a source in front of the text that it ends with. -/
theorem exists_reading_of_parse_text
    {done : List Piece}
    {line : Nat}
    {text : List Char}
    (root : "extends" ∉ tagNames front)
    (cut : pieces front = done ++ textPiece line text)
    (parsed : parse front = .ok first) :
    ∃ reading, done.foldlM Reading.readPiece .start = .ok reading ∧
      reading.levels = [] ∧ reading.parent = none ∧
      reading.blockNames = (blockNames front).reverse ∧
      first = ⟨none, reading.nodes.reverse ++ textNodes text⟩ := by
  obtain ⟨whole, folded, closed, rfl⟩ := exists_reading_of_parse parsed
  obtain ⟨names, parent⟩ := Reading.notes_of_foldlM_readPiece folded
  have noParent := parent (mem_tagNames_iff.not.mp root)
  rw [cut, List.foldlM_append] at folded
  obtain ⟨reading, foldedDone, isWhole⟩ := exists_of_bind_eq_ok folded
  rw [Reading.foldlM_textPiece, Reading.addText_eq] at isWhole
  obtain rfl := Except.ok.inj isWhole
  refine ⟨reading, foldedDone, closed, noParent, ?_, ?_⟩
  · simpa [Reading.start, blockNames] using names
  · rw [noParent, List.reverse_append, reverse_textNodes]
    rfl

/-- What is read of a source behind the text that it starts with. -/
theorem exists_reading_of_text_parse
    {rest : List Piece}
    {line : Nat}
    {text : List Char}
    (root : "extends" ∉ tagNames behind)
    (cut : pieces behind = textPiece line text ++ rest)
    (parsed : parse behind = .ok second) :
    ∃ reading, rest.foldlM Reading.readPiece .start = .ok reading ∧
      reading.levels = [] ∧ reading.parent = none ∧
      second = ⟨none, textNodes text ++ reading.nodes.reverse⟩ := by
  obtain ⟨whole, folded, closed, rfl⟩ := exists_reading_of_parse parsed
  have noParent := (Reading.notes_of_foldlM_readPiece folded).2 (mem_tagNames_iff.not.mp root)
  -- A text notes nothing, so every piece may follow it.
  rw [cut, List.foldlM_append, Reading.foldlM_textPiece, Reading.addText_eq] at folded
  have follow : ∀ piece ∈ rest,
      { Reading.start with nodes := textNodes text ++ Reading.start.nodes }.MayFollow piece :=
    fun piece _ => ⟨(nomatch ·), fun _ _ => List.not_mem_nil⟩
  change List.foldlM _ _ _ = _ at folded
  rw [Reading.foldlM_readPiece_eq_onto rfl follow, map_eq_pure_bind] at folded
  obtain ⟨reading, foldedRest, isWhole⟩ := exists_of_bind_eq_ok folded
  obtain rfl := Except.ok.inj isWhole
  have noneOpen := Reading.levels_onto_eq_nil_iff.mp closed
  refine ⟨reading, foldedRest, noneOpen, by simpa [Reading.onto, Reading.start] using noParent, ?_⟩
  rw [noParent]
  simp [Reading.onto, Reading.bodyOnto, noneOpen, Reading.start, reverse_textNodes]

/-- Two sources without parents and with different blocks are read behind each other. -/
theorem exists_parse_append
    (closed : ClosesDelimiters front)
    (last : front.toList.getLast? ≠ some '{')
    (rootFront : "extends" ∉ tagNames front)
    (rootBehind : "extends" ∉ tagNames behind)
    (parsedFront : parse front = .ok first)
    (parsedBehind : parse behind = .ok second)
    (distinct : (blockNames front).Disjoint (blockNames behind)) :
    ∃ nodes text other others, first = ⟨none, nodes ++ textNodes text⟩ ∧
      second = ⟨none, textNodes other ++ others⟩ ∧
      parse (front ++ behind) = .ok ⟨none, nodes ++ textNodes (text ++ other) ++ others⟩ := by
  obtain ⟨done, line, text, other, rest, moved, cutFront, cutBehind, cut, same⟩ :=
    @exists_pieces_append front behind closed last
  obtain ⟨before, foldedBefore, closedBefore, rootBefore, names, rfl⟩ :=
    exists_reading_of_parse_text rootFront cutFront parsedFront
  obtain ⟨after, foldedAfter, closedAfter, rootAfter, rfl⟩ :=
    exists_reading_of_text_parse rootBehind cutBehind parsedBehind
  refine ⟨_, text, other, _, rfl, rfl, ?_⟩
  let base : Reading := before.addText (text ++ other)
  have closedBase : base.levels = [] := by simpa only [base, Reading.addText_eq] using closedBefore
  have namesBase : base.blockNames = (blockNames front).reverse := by
    simpa only [base, Reading.addText_eq] using names
  have follow : ∀ piece ∈ rest, base.MayFollow piece := by
    intro piece among
    have inBehind : piece ∈ pieces behind := cutBehind ▸ List.mem_append_right _ among
    constructor
    · intro _ isParent
      exact rootBehind (mem_tagNames_iff.mpr (List.mem_map.mpr ⟨piece, inBehind, isParent⟩))
    · intro name isName taken
      rw [namesBase, List.mem_reverse] at taken
      exact distinct taken (List.mem_filterMap.mpr ⟨piece, inBehind, isName⟩)
  have foldedRest : rest.foldlM Reading.readPiece base = .ok (after.onto base) := by
    rw [Reading.foldlM_readPiece_eq_onto closedBase follow, foldedAfter]
    rfl
  have foldedMoved := refines_foldlM_readPiece same.symm base _ foldedRest
  have folded : (pieces (front ++ behind)).foldlM Reading.readPiece .start =
      .ok (after.onto base) := by
    rw [cut, List.foldlM_append, foldedBefore]
    change List.foldlM _ _ _ = _
    rw [List.foldlM_append, Reading.foldlM_textPiece]
    exact foldedMoved
  rw [parse, folded]
  refine Reading.finish_eq_ok_iff.mpr ⟨Reading.levels_onto_eq_nil_iff.mpr closedAfter, ?_⟩
  simp [Reading.onto, Reading.bodyOnto, closedAfter, rootAfter, rootBefore, base, reverse_textNodes,
    Reading.addText_eq]

end Append

/-! ## Showing -/

theorem Node.filterNamesOf_append (front behind : List Node) :
    filterNamesOf (front ++ behind) = filterNamesOf front ++ filterNamesOf behind := by
  induction front with
  | nil => rfl
  | cons node front inductionHypothesis => simp [filterNamesOf, inductionHypothesis]

theorem Node.filterNamesOf_textNodes (text : List Char) : filterNamesOf (textNodes text) = [] := by
  cases text <;> rfl

section Texts

variable {surroundings : Surroundings} {overrides : Overrides} {scope : Scope}

theorem Node.renderAll_textNodes (text : List Char) :
    renderAll surroundings overrides (textNodes text) scope = pure (.ofList text) := by
  cases text with
  | nil => rfl
  | cons character text => exact congrFun (renderAll_singleton _) scope

/-- Texts that meet are shown as one. -/
theorem Node.renderAll_textNodes_append (nodes others : List Node) (text other : List Char) :
    renderAll surroundings overrides (nodes ++ textNodes (text ++ other) ++ others) scope =
      renderAll surroundings overrides ((nodes ++ textNodes text) ++ (textNodes other ++ others))
        scope := by
  simp only [renderAll_append, renderAll_textNodes, bind_assoc, pure_bind, String.ofList_append,
    String.append_assoc]

end Texts

section Showing

variable {library : Library} {registry : Document.FilterRegistry} {context : Context}
  {source front behind text first second : String}

/-- A template without a parent is shown as its nodes if all its filters exist. -/
theorem renderWithin_eq_ok_iff_of_root
    {includes : Nat}
    {template : Template}
    {scope : Scope}
    (isRoot : template.parent = none) :
    renderWithin library registry includes template scope = .ok text ↔
      KnowsAll registry template.filterNames ∧
        Node.renderAll ⟨registry, includedWithin library registry includes⟩ (fun _ => none)
          template.nodes scope = .ok text := by
  have found : ancestorsFrom library registry scope maxAncestors [] template = .ok [] :=
    ancestorsFrom_of_root isRoot
  rw [← checkFilters_eq_ok_iff]
  constructor
  · intro rendered
    obtain ⟨ancestors, checked, isFound, shown⟩ := exists_of_renderWithin_eq_ok rendered
    obtain rfl := Except.ok.inj (found.symm.trans isFound)
    exact ⟨checked, shown⟩
  · rintro ⟨checked, shown⟩
    rw [renderWithin_eq_renderLineage checked found]
    exact shown

theorem renderSource_eq_ok_iff :
    renderSource library registry source context = .ok text ↔
      ∃ template, parse source = .ok template ∧
        renderWithin library registry maxIncludes template context.scope = .ok text := by
  constructor
  · exact exists_of_bind_eq_ok
  · rintro ⟨template, parsed, rendered⟩
    rw [renderSource, parsed]
    exact rendered

/--
Two sources that are templates without parents are shown behind each other, where the first one
closes its delimiters, unless both have a block of the same name; the blocks of a comment count.
-/
theorem renderSource_append_eq_ok_iff
    (closed : ClosesDelimiters front)
    (last : front.toList.getLast? ≠ some '{')
    (rootFront : "extends" ∉ tagNames front)
    (rootBehind : "extends" ∉ tagNames behind)
    (renderedFront : renderSource library registry front context = .ok first)
    (renderedBehind : renderSource library registry behind context = .ok second) :
    renderSource library registry (front ++ behind) context = .ok (first ++ second) ↔
      (blockNames front).Disjoint (blockNames behind) := by
  constructor
  · intro rendered
    obtain ⟨template, parsed, -⟩ := renderSource_eq_ok_iff.mp rendered
    have distinct := nodup_blockNames parsed
    rw [blockNames_append closed last] at distinct
    exact List.disjoint_of_nodup_append distinct
  · intro distinct
    obtain ⟨templateFront, parsedFront, shownFront⟩ := renderSource_eq_ok_iff.mp renderedFront
    obtain ⟨templateBehind, parsedBehind, shownBehind⟩ := renderSource_eq_ok_iff.mp renderedBehind
    obtain ⟨nodes, text, other, others, rfl, rfl, parsed⟩ :=
      exists_parse_append closed last rootFront rootBehind parsedFront parsedBehind distinct
    obtain ⟨knownFront, shownFront⟩ := (renderWithin_eq_ok_iff_of_root rfl).mp shownFront
    obtain ⟨knownBehind, shownBehind⟩ := (renderWithin_eq_ok_iff_of_root rfl).mp shownBehind
    refine renderSource_eq_ok_iff.mpr ⟨_, parsed, (renderWithin_eq_ok_iff_of_root rfl).mpr ⟨?_, ?_⟩⟩
    · simp only [filterNames, Option.elim_none, List.nil_append, Node.filterNamesOf_append,
        Node.filterNamesOf_textNodes, List.append_nil] at knownFront knownBehind ⊢
      exact knowsAll_append.mpr ⟨knownFront, knownBehind⟩
    · rw [Node.renderAll_textNodes_append, Node.renderAll_append, shownFront, shownBehind]
      rfl

set_option maxRecDepth 20000 in
/-- A block in a comment and one behind it, and texts that meet. -/
theorem renderSource_append_eq_ok_iff_comment :
    let front := "\x7b% comment %\x7d\x7b% block a %\x7d\x7b% endblock %\x7d\x7b% endcomment %\x7du"
    let behind := "v\x7b% block b %\x7dw\x7b% endblock %\x7d"
    ClosesDelimiters front ∧ front.toList.getLast? ≠ some '{' ∧
      "extends" ∉ tagNames front ∧ "extends" ∉ tagNames behind ∧
      renderSource .empty .empty front .empty = .ok "u" ∧
      renderSource .empty .empty behind .empty = .ok "vw" ∧
      renderSource .empty .empty (front ++ behind) .empty = .ok "uvw" := by
  intro front behind
  have cutFront : pieces front = [⟨.delimited .tag, " comment ".toList, 1⟩,
      ⟨.delimited .tag, " block a ".toList, 1⟩, ⟨.delimited .tag, " endblock ".toList, 1⟩,
      ⟨.delimited .tag, " endcomment ".toList, 1⟩, ⟨.text, ['u'], 1⟩] := by
    cbv
  have cutBehind : pieces behind = [⟨.text, ['v'], 1⟩, ⟨.delimited .tag, " block b ".toList, 1⟩,
      ⟨.text, ['w'], 1⟩, ⟨.delimited .tag, " endblock ".toList, 1⟩] := by
    cbv
  have closed : ClosesDelimiters front := by
    have noBrace : ∀ piece ∈ pieces front, piece.kind = .text → '{' ∉ piece.content := by
      rw [cutFront]
      decide
    exact fun piece among isText => hasNoOpening_of_not_mem (noBrace piece among isText)
  have last : front.toList.getLast? ≠ some '{' := by decide
  have rootFront : "extends" ∉ tagNames front := by
    rw [tagNames, cutFront]
    decide
  have rootBehind : "extends" ∉ tagNames behind := by
    rw [tagNames, cutBehind]
    decide
  have distinct : (blockNames front).Disjoint (blockNames behind) := by
    rw [blockNames, cutFront, blockNames, cutBehind]
    exact List.disjoint_singleton.mpr (by decide)
  have renderedFront : renderSource .empty .empty front .empty = .ok "u" := by cbv
  have renderedBehind : renderSource .empty .empty behind .empty = .ok "vw" := by cbv
  exact ⟨closed, last, rootFront, rootBehind, renderedFront, renderedBehind,
    (renderSource_append_eq_ok_iff closed last rootFront rootBehind renderedFront
      renderedBehind).mpr distinct⟩

set_option maxRecDepth 20000 in
/-- A block that vanishes with its comment keeps its name from the template behind it. -/
theorem renderSource_append_ne_of_vanished_block :
    let front := "\x7b% comment %\x7d\x7b% block a %\x7d\x7b% endblock %\x7d\x7b% endcomment %\x7d"
    let behind := "\x7b% block a %\x7dx\x7b% endblock %\x7d"
    ClosesDelimiters front ∧ front.toList.getLast? ≠ some '{' ∧
      parse front = .ok ⟨none, [.text ""]⟩ ∧
      parse behind = .ok ⟨none, [.block "a" [.text "x"]]⟩ ∧
      renderSource .empty .empty front .empty = .ok "" ∧
      renderSource .empty .empty behind .empty = .ok "x" ∧
      renderSource .empty .empty (front ++ behind) .empty =
        .error (.onLine 1 "'block' tag with name 'a' appears more than once") := by
  intro front behind
  have closed : ClosesDelimiters front := by
    have kinds : (pieces front).map Piece.kind = List.replicate 4 (.delimited .tag) := by cbv
    intro piece among isText
    have isTag : piece.kind = .delimited .tag :=
      List.eq_of_mem_replicate (kinds ▸ List.mem_map_of_mem among)
    rw [isText] at isTag
    contradiction
  exact ⟨closed, by decide, by cbv, by cbv, by cbv, by cbv, by cbv⟩

end Showing

end Template
end TemplatedMarkup
