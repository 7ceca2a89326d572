import TemplatedMarkup.Document.Block
import TemplatedMarkup.Proofs.Document.Comment
import TemplatedMarkup.Proofs.Text.Trim

/-!
# Malformed markers

A source is split into the same blocks in either mode, but strict mode refuses a source with a line
that starts like a marker and names no block.  The error tells the number of the first such line in
the source, since neither comments nor carriage returns change the lines that are counted.
-/

namespace TemplatedMarkup
namespace Document

open Text

/--
A line starts like a marker and names no block: no bracket closes it, or only blanks stand in front
of the first one that does.
-/
def IsMalformedMarker (line : List Char) : Prop :=
  ∃ indent after, line = indent ++ '-' :: '[' :: after ∧
    (∀ character ∈ indent, isIndent character = true) ∧
    (']' ∉ after ∨
      ∃ name rest, after = name ++ ']' :: rest ∧ ∀ character ∈ name, isBlank character = true)

/-- A marker is recognised behind its indent. -/
theorem Marker.ofLine_append
    {indent : List Char}
    (isIndented : ∀ character ∈ indent, isIndent character = true)
    (after : List Char) :
    Marker.ofLine (indent ++ '-' :: '[' :: after) = Marker.ofLine ('-' :: '[' :: after) := by
  have behind : (indent ++ '-' :: '[' :: after).dropWhile isIndent = '-' :: '[' :: after := by
    rw [List.dropWhile_append_of_pos isIndented]
    rfl
  unfold Marker.ofLine
  rw [behind]
  rfl

/-- A marker that no bracket closes is malformed. -/
theorem Marker.ofLine_unclosed
    {after : List Char}
    (unclosed : ']' ∉ after) :
    Marker.ofLine ('-' :: '[' :: after) = .malformed := by
  have uncut := cutAt?_eq_none_of_not_mem unclosed
  unfold Marker.ofLine
  simp [isIndent, uncut]

/-- A marker that a bracket closes is malformed when only blanks stand in front of it. -/
theorem Marker.ofLine_closed
    {name : List Char}
    (closes : ']' ∉ name)
    (rest : List Char) :
    Marker.ofLine ('-' :: '[' :: (name ++ ']' :: rest)) =
      if (trimWhere isBlank name).isEmpty then .malformed
      else .opening (trimWhere isBlank name) rest := by
  have cut := cutAt?_append closes rest
  unfold Marker.ofLine
  simp [isIndent, cut]

/-- The lines that are read as malformed markers are those that start like one and name no block. -/
theorem Marker.ofLine_eq_malformed_iff {line : List Char} :
    Marker.ofLine line = .malformed ↔ IsMalformedMarker line := by
  constructor
  · intro malformed
    have indented : ∀ character ∈ line.takeWhile isIndent, isIndent character = true :=
      List.all_eq_true.mp List.all_takeWhile
    by_cases starts : ∃ after, line.dropWhile isIndent = '-' :: '[' :: after
    · obtain ⟨after, behind⟩ := starts
      have whole : line = line.takeWhile isIndent ++ '-' :: '[' :: after := by
        rw [← behind, List.takeWhile_append_dropWhile]
      refine ⟨_, after, whole, indented, ?_⟩
      rw [whole, Marker.ofLine_append indented] at malformed
      by_cases closed : ']' ∈ after
      · obtain ⟨name, rest, rfl, closes⟩ := List.eq_append_cons_of_mem closed
        rw [Marker.ofLine_closed closes] at malformed
        split at malformed
        · rename_i empty
          exact .inr ⟨name, rest, rfl, trimWhere_eq_nil_iff.mp (List.isEmpty_iff.mp empty)⟩
        · contradiction
      · exact .inl closed
    · unfold Marker.ofLine at malformed
      split at malformed
      · rename_i after behind
        exact absurd ⟨after, behind⟩ starts
      · contradiction
  · rintro ⟨indent, after, rfl, indented, unclosed | ⟨name, rest, rfl, blank⟩⟩
    · rw [Marker.ofLine_append indented, Marker.ofLine_unclosed unclosed]
    · have closes : ']' ∉ name := fun among => absurd (blank ']' among) (by decide)
      rw [Marker.ofLine_append indented, Marker.ofLine_closed closes,
        trimWhere_eq_nil_iff.mpr blank]
      rfl

/-! ## Strict reading -/

variable
  {number : Nat}
  {current : Option OpenBlock}
  {blocks found : Blocks}
  {lines : List (List Char)}

/-- Strict reading refuses the lines with a malformed marker among them, and no others. -/
theorem exists_error_of_readBlocks_iff :
    (∃ cause, readBlocks true number current blocks lines = .error cause) ↔
      ∃ line ∈ lines, IsMalformedMarker line := by
  induction lines generalizing number current blocks with
  | nil => simp [readBlocks]
  | cons line lines inductionHypothesis =>
      simp only [List.mem_cons, exists_eq_or_imp]
      rw [readBlocks, ← Marker.ofLine_eq_malformed_iff]
      cases Marker.ofLine line with
      | malformed => simp
      | opening name rest => simpa using inductionHypothesis
      | content => simpa using inductionHypothesis

/-- What strict reading accepts is read alike in either mode. -/
theorem readBlocks_of_strict
    (strict : Bool)
    (read : readBlocks true number current blocks lines = .ok found) :
    readBlocks strict number current blocks lines = .ok found := by
  induction lines generalizing number current blocks with
  | nil => exact read
  | cons line lines inductionHypothesis =>
      rw [readBlocks] at read ⊢
      cases marker : Marker.ofLine line with
      | malformed =>
          rw [marker] at read
          contradiction
      | opening name rest =>
          rw [marker] at read
          exact inductionHypothesis read
      | content =>
          rw [marker] at read
          exact inductionHypothesis read

/-- What strict mode accepts is split alike in either mode. -/
theorem extract_of_strict
    (strict : Bool)
    {source : String}
    (extracted : extract source true = .ok found) :
    extract source strict = .ok found :=
  readBlocks_of_strict strict extracted

/-! ## The line of an error -/

/-- A line is the first one among some lines that is a malformed marker. -/
structure IsFirstMalformed (lines : List (List Char)) (place : Nat) (line : List Char) : Prop where
  isThere : lines[place]? = some line
  malformed : IsMalformedMarker line
  /-- No line before it is one. -/
  notBefore : ∀ earlier < place, ∀ other, lines[earlier]? = some other → ¬IsMalformedMarker other

/-- Strict mode refuses lines, which are numbered from a number on, for the first malformed one. -/
def RefusedFor (number : Nat) (lines : List (List Char)) (cause : DocumentError) : Prop :=
  ∃ place line, IsFirstMalformed lines place line ∧ cause = malformedMarker (number + place) line

section Refused

variable
  {cause : DocumentError}
  {line : List Char}
  {front back : List (List Char)}

theorem not_refusedFor_nil : ¬RefusedFor number [] cause := by
  rintro ⟨place, line, ⟨isThere, -, -⟩, -⟩
  simp at isThere

theorem refusedFor_cons_iff :
    RefusedFor number (line :: lines) cause ↔
      IsMalformedMarker line ∧ cause = malformedMarker number line ∨
        ¬IsMalformedMarker line ∧ RefusedFor (number + 1) lines cause := by
  constructor
  · rintro ⟨place, found, ⟨isThere, malformed, notBefore⟩, rfl⟩
    cases place with
    | zero =>
        obtain rfl : line = found := by simpa using isThere
        exact .inl ⟨malformed, rfl⟩
    | succ place =>
        refine .inr ⟨notBefore 0 (Nat.succ_pos place) line rfl, place, found,
          ⟨by simpa using isThere, malformed, fun earlier before other isOther => ?_⟩, ?_⟩
        · exact notBefore (earlier + 1) (Nat.succ_lt_succ before) other (by simpa using isOther)
        · rw [Nat.add_assoc, Nat.add_comm 1]
  · rintro (⟨malformed, rfl⟩ | ⟨wellFormed, place, found, first, rfl⟩)
    · exact ⟨0, line, ⟨rfl, malformed, fun _ before => nomatch before⟩, rfl⟩
    · refine ⟨place + 1, found, ⟨by simpa using first.isThere, first.malformed, ?_⟩, ?_⟩
      · intro earlier before other isOther
        cases earlier with
        | zero =>
            obtain rfl : line = other := by simpa using isOther
            exact wellFormed
        | succ earlier =>
            exact first.notBefore earlier (Nat.lt_of_succ_lt_succ before) other
              (by simpa using isOther)
      · rw [Nat.add_assoc, Nat.add_comm 1]

/-- Strict reading fails with the error of the first malformed marker. -/
theorem readBlocks_eq_error_iff :
    readBlocks true number current blocks lines = .error cause ↔
      RefusedFor number lines cause := by
  induction lines generalizing number current blocks with
  | nil => exact iff_of_false nofun not_refusedFor_nil
  | cons line lines inductionHypothesis =>
      rw [readBlocks, refusedFor_cons_iff, ← Marker.ofLine_eq_malformed_iff]
      cases Marker.ofLine line with
      | malformed => simp [eq_comm]
      | opening name rest => simpa using inductionHypothesis
      | content => simpa using inductionHypothesis

/-- A carriage return at the end of a line makes no difference to markers. -/
theorem isMalformedMarker_concat_return :
    IsMalformedMarker (line ++ ['\r']) ↔ IsMalformedMarker line := by
  constructor
  · rintro ⟨indent, after, isLine, indented, noName⟩
    cases after using List.reverseRecOn with
    | nil =>
        have last := congrArg List.getLast? isLine
        simp at last
    | append_singleton after last _ =>
        have whole : line ++ ['\r'] = (indent ++ '-' :: '[' :: after) ++ [last] := by
          simpa using isLine
        obtain ⟨rfl, isReturn⟩ := List.append_inj' whole rfl
        obtain rfl := List.singleton_inj.mp isReturn
        refine ⟨indent, after, rfl, indented, ?_⟩
        rcases noName with unclosed | ⟨name, rest, isAfter, blank⟩
        · exact .inl fun among => unclosed (List.mem_append_left _ among)
        · cases rest using List.reverseRecOn with
          | nil =>
              have lasts := congrArg List.getLast? isAfter
              simp at lasts
          | append_singleton rest end_ _ =>
              have whole : after ++ ['\r'] = (name ++ ']' :: rest) ++ [end_] := by
                simpa using isAfter
              exact .inr ⟨name, rest, (List.append_inj' whole rfl).1, blank⟩
  · rintro ⟨indent, after, rfl, indented, noName⟩
    refine ⟨indent, after ++ ['\r'], by simp, indented, ?_⟩
    rcases noName with unclosed | ⟨name, rest, rfl, blank⟩
    · exact .inl (by simpa using unclosed)
    · exact .inr ⟨name, rest ++ ['\r'], by simp, blank⟩

theorem isMalformedMarker_dropCarriageReturn :
    IsMalformedMarker (dropCarriageReturn line) ↔ IsMalformedMarker line := by
  unfold dropCarriageReturn
  split
  · rename_i isLast
    obtain ⟨front, rfl⟩ := List.getLast?_eq_some_iff.mp isLast
    rw [List.dropLast_concat, isMalformedMarker_concat_return]
  · rfl

/-- Lines are refused alike with carriage returns at their ends. -/
theorem refusedFor_map_append_iff :
    RefusedFor number (front.map dropCarriageReturn ++ back) cause ↔
      RefusedFor number (front ++ back) cause := by
  induction front generalizing number with
  | nil => rfl
  | cons line front inductionHypothesis =>
      rw [List.map_cons, List.cons_append, List.cons_append, refusedFor_cons_iff,
        refusedFor_cons_iff, isMalformedMarker_dropCarriageReturn, inductionHypothesis,
        malformedMarker, malformedMarker, trimWhere_dropCarriageReturn]

/-- An empty last line is not refused. -/
theorem refusedFor_concat_nil_iff :
    RefusedFor number (front ++ [[]]) cause ↔ RefusedFor number front cause := by
  induction front generalizing number with
  | nil =>
      have notMalformed : ¬IsMalformedMarker [] := by
        rintro ⟨indent, after, isEmpty, -⟩
        simp at isEmpty
      rw [List.nil_append, refusedFor_cons_iff]
      simp [notMalformed, not_refusedFor_nil]
  | cons line front inductionHypothesis =>
      rw [List.cons_append, refusedFor_cons_iff, refusedFor_cons_iff, inductionHypothesis]

/-- The lines of a text are refused like the pieces between its line feeds. -/
theorem refusedFor_lineLists_iff {text : List Char} :
    RefusedFor number (lineLists text) cause ↔ RefusedFor number (text.splitOn '\n') cause := by
  unfold lineLists
  rcases List.eq_nil_or_concat (text.splitOn '\n') with empty | ⟨front, last, isSplit⟩
  · exact absurd empty (List.splitOn_ne_nil '\n' text)
  · rw [isSplit, List.concat_eq_append]
    simp only [List.dropLast_concat, List.getLast?_concat, Option.toList_some,
      refusedFor_map_append_iff]
    cases last with
    | nil => simpa using refusedFor_concat_nil_iff.symm
    | cons character last => simp

end Refused

/--
What comments are to a source.  Its lines stay apart and in their order, each cut at its comment;
there is nothing more to cut; and strict mode numbers the malformed marker that it refuses as a line
of the source.
-/
structure StripsByLine (source : String) : Prop where
  lines : List.Forall₂ IsCutTo (source.toList.splitOn '\n')
    ((stripComments source).toList.splitOn '\n')
  again : stripComments (stripComments source) = stripComments source
  /-- The line that is refused is the one of the source, without its comment, at the number told. -/
  numbers : ∀ cause, extract source true = .error cause ↔
    ∃ place line, (source.toList.splitOn '\n')[place]? = some line ∧
      IsFirstMalformed ((stripComments source).toList.splitOn '\n') place (cutComment none line) ∧
      cause = malformedMarker (place + 1) (cutComment none line)

/-- Comments are taken out of a source line by line. -/
theorem stripsByLine (source : String) : StripsByLine source := by
  have pieces : (stripComments source).toList.splitOn '\n' =
      (source.toList.splitOn '\n').map (cutComment none) := by
    rw [stripComments, String.toList_ofList, splitOn_stripCommentList]
  refine ⟨?_, ?_, fun cause => ?_⟩
  · rw [pieces, List.forall₂_map_right_iff]
    exact List.forall₂_same.mpr fun line _ => isCutTo_cutComment line
  · rw [stripComments, stripComments, String.toList_ofList, stripCommentList_stripCommentList]
  · rw [extract, readBlocks_eq_error_iff, refusedFor_lineLists_iff, splitOn_stripCommentList,
      pieces]
    constructor
    · rintro ⟨place, kept, first, rfl⟩
      have isThere := first.isThere
      rw [List.getElem?_map] at isThere
      obtain ⟨line, isLine, rfl⟩ := Option.map_eq_some_iff.mp isThere
      exact ⟨place, line, isLine, first, by rw [Nat.add_comm]⟩
    · rintro ⟨place, line, -, first, rfl⟩
      exact ⟨place, cutComment none line, first, by rw [Nat.add_comm]⟩

/-- An address is kept, and the comment behind it is cut off. -/
example : stripComments "-[a]\nsee http://x//y // z\n// w" = "-[a]\nsee http://x\n" := by
  cbv

end Document
end TemplatedMarkup
