import Mathlib.Data.List.Induction
import Mathlib.Data.List.TakeWhile
import TemplatedMarkup.Text.Trim

/-!
# Texts that need no trimming, and their lines

Trimming leaves a text as it is when neither end is dropped.  Texts of one line each that are
joined by line feeds are the lines of what they are joined to.
-/

namespace TemplatedMarkup
namespace Text

section Trim

variable
  {drops : Char → Bool}
  {text : List Char}

/-- Nothing is dropped from the start when the first character stays. -/
theorem dropWhile_eq_self
    (first : ∀ character ∈ text.head?, drops character = false) :
    text.dropWhile drops = text := by
  cases text with
  | nil => rfl
  | cons character rest => exact List.dropWhile_cons_of_neg (by simp [first character rfl])

/-- Nothing is dropped from the end when the last character stays. -/
theorem trimEndWhere_eq_self
    (last : ∀ character ∈ text.getLast?, drops character = false) :
    trimEndWhere drops text = text := by
  rw [← List.head?_reverse] at last
  rw [trimEndWhere, dropWhile_eq_self last, List.reverse_reverse]

/-- Nothing is dropped when the first and the last character stay. -/
theorem trimWhere_eq_self
    (first : ∀ character ∈ text.head?, drops character = false)
    (last : ∀ character ∈ text.getLast?, drops character = false) :
    trimWhere drops text = text := by
  rw [trimWhere, dropWhile_eq_self first, trimEndWhere_eq_self last]

/-- The first character of what is left is one that stays. -/
theorem head?_dropWhile_stays
    (drops : Char → Bool)
    (text : List Char) :
    ∀ character ∈ (text.dropWhile drops).head?, drops character = false := by
  intro character isFirst
  have kept := List.head?_dropWhile_not drops text
  rw [Option.mem_def.mp isFirst] at kept
  simpa using kept

/-- The last character of what is left is one that stays. -/
theorem getLast?_trimEndWhere
    (drops : Char → Bool)
    (text : List Char) :
    ∀ character ∈ (trimEndWhere drops text).getLast?, drops character = false := by
  rw [trimEndWhere, List.getLast?_reverse]
  exact head?_dropWhile_stays drops text.reverse

/-- Trimming the end only takes characters away. -/
theorem mem_of_mem_trimEndWhere
    {character : Char}
    (among : character ∈ trimEndWhere drops text) :
    character ∈ text := by
  rw [trimEndWhere, List.mem_reverse] at among
  exact List.mem_reverse.mp ((List.dropWhile_sublist drops).mem among)

/-- What is kept of a text, when its end is trimmed, is its start. -/
theorem prefix_of_trimEndWhere (drops : Char → Bool) (text : List Char) :
    trimEndWhere drops text <+: text := by
  rw [trimEndWhere, ← List.reverse_suffix, List.reverse_reverse]
  exact List.dropWhile_suffix drops

/-- A text that is left alone by trimming has an end on either side that is not dropped. -/
theorem ends_of_trimWhere_eq_self
    (trimmed : trimWhere drops text = text) :
    (∀ character ∈ text.head?, drops character = false) ∧
      ∀ character ∈ text.getLast?, drops character = false := by
  have kept : text.dropWhile drops = text := by
    refine (List.dropWhile_sublist drops).eq_of_length_le ?_
    calc text.length = (trimWhere drops text).length := by rw [trimmed]
      _ ≤ (text.dropWhile drops).length := (prefix_of_trimEndWhere drops _).length_le
  constructor
  · rw [← kept]
    exact head?_dropWhile_stays drops text
  · rw [← trimmed]
    exact getLast?_trimEndWhere drops _

/-- A trimmed string has no blank at its ends. -/
theorem ends_of_trim_eq_self
    {text : String}
    (trimmed : trim text = text) :
    (∀ character ∈ text.toList.head?, isBlank character = false) ∧
      ∀ character ∈ text.toList.getLast?, isBlank character = false := by
  have same := congrArg String.toList trimmed
  rw [trim, String.toList_ofList] at same
  exact ends_of_trimWhere_eq_self same

/-- What stands in front of a text that is not dropped is kept. -/
theorem trimEndWhere_append
    (front : List Char)
    (kept : trimEndWhere drops text ≠ []) :
    trimEndWhere drops (front ++ text) = front ++ trimEndWhere drops text := by
  unfold trimEndWhere at kept ⊢
  rw [ne_eq, List.reverse_eq_nil_iff] at kept
  rw [List.reverse_append, List.dropWhile_append, if_neg (by simpa using kept),
    List.reverse_append, List.reverse_reverse]

/-- What stands in front of a text is kept when its last character is one that stays. -/
theorem trimEndWhere_append_of_getLast?
    {front : List Char}
    (last : ∃ character ∈ front.getLast?, drops character = false)
    (text : List Char) :
    trimEndWhere drops (front ++ text) = front ++ trimEndWhere drops text := by
  obtain ⟨character, isLast, stays⟩ := last
  obtain ⟨start, rfl⟩ := List.getLast?_eq_some_iff.mp isLast
  unfold trimEndWhere
  rw [List.reverse_append, List.dropWhile_append]
  split
  · rename_i dropped
    rw [List.isEmpty_iff.mp dropped, List.reverse_append, List.reverse_singleton,
      List.singleton_append, List.dropWhile_cons_of_neg (by simp [stays])]
    simp
  · rw [List.reverse_append, List.reverse_reverse]

/-- What is kept of a text starts with its first character when that one stays. -/
theorem head?_trimWhere
    {first : Char}
    (isFirst : text.head? = some first)
    (stays : drops first = false) :
    (trimWhere drops text).head? = some first := by
  obtain ⟨rest, rfl⟩ := List.head?_eq_some_iff.mp isFirst
  rw [trimWhere, dropWhile_eq_self (by simpa using stays), ← List.singleton_append,
    trimEndWhere_append_of_getLast? ⟨first, rfl, stays⟩]
  rfl

/-- What is dropped at the end does not count. -/
theorem trimEndWhere_append_of_dropped
    {behind : List Char}
    (isBehind : ∀ character ∈ behind, drops character = true)
    (text : List Char) :
    trimEndWhere drops (text ++ behind) = trimEndWhere drops text := by
  rw [trimEndWhere, trimEndWhere, List.reverse_append,
    List.dropWhile_append_of_pos (by simpa using isBehind)]

theorem trimWhere_append_of_dropped
    {behind : List Char}
    (isBehind : ∀ character ∈ behind, drops character = true)
    (text : List Char) :
    trimWhere drops (text ++ behind) = trimWhere drops text := by
  rw [trimWhere, trimWhere, List.dropWhile_append]
  split
  · rename_i nothing
    rw [List.isEmpty_iff.mp nothing, List.dropWhile_eq_nil_iff.mpr isBehind]
  · exact trimEndWhere_append_of_dropped isBehind _

/-- A text is what is kept of it with what is dropped at its end. -/
theorem exists_eq_trimEndWhere_append
    (drops : Char → Bool)
    (text : List Char) :
    ∃ behind, text = trimEndWhere drops text ++ behind ∧
      ∀ character ∈ behind, drops character = true := by
  refine ⟨(text.reverse.takeWhile drops).reverse, ?_, fun character among => ?_⟩
  · rw [trimEndWhere, ← List.reverse_append, List.takeWhile_append_dropWhile, List.reverse_reverse]
  · exact List.mem_takeWhile_imp (List.mem_reverse.mp among)

/-- It does not count for trimming that the end of a text has been dropped. -/
theorem trimWhere_trimEndWhere
    (drops : Char → Bool)
    (text : List Char) :
    trimWhere drops (trimEndWhere drops text) = trimWhere drops text := by
  obtain ⟨behind, cut, isBehind⟩ := exists_eq_trimEndWhere_append drops text
  rw [← trimWhere_append_of_dropped isBehind, ← cut]

/-- What is dropped at both ends of a text that stays as it is. -/
theorem trimWhere_append
    {front behind : List Char}
    (trimmed : trimWhere drops text = text)
    (inFront : ∀ character ∈ front, drops character = true)
    (isBehind : ∀ character ∈ behind, drops character = true) :
    trimWhere drops (front ++ text ++ behind) = text := by
  rw [trimWhere_append_of_dropped isBehind, trimWhere, List.dropWhile_append_of_pos inFront]
  exact trimmed

/-- Nothing is left of a text when all of it is dropped. -/
theorem trimWhere_eq_nil_iff :
    trimWhere drops text = [] ↔ ∀ character ∈ text, drops character = true := by
  constructor
  · intro nothing
    have dropped : text.dropWhile drops = [] := by
      cases kept : text.dropWhile drops with
      | nil => rfl
      | cons first rest =>
          have stays := head?_dropWhile_stays drops text first (by simp [kept])
          have starts : (text.dropWhile drops).head? = some first := by simp [kept]
          have isFirst := head?_trimWhere starts stays
          rw [trimWhere, dropWhile_eq_self (head?_dropWhile_stays drops text)] at isFirst
          rw [trimWhere] at nothing
          simp [nothing] at isFirst
    exact List.dropWhile_eq_nil_iff.mp dropped
  · intro dropped
    rw [trimWhere, List.dropWhile_eq_nil_iff.mpr dropped]
    rfl

end Trim

/-! ## Cutting -/

section Cut

variable
  {separator : Char}
  {text front after : List Char}

/-- A text is cut exactly where the separator stands for the first time. -/
theorem cutAt?_append
    (absent : separator ∉ front)
    (after : List Char) :
    cutAt? separator (front ++ separator :: after) = some (front, after) := by
  have differ : ∀ character ∈ front, (character != separator) = true := by
    intro character among
    simpa using fun (same : character = separator) => absent (same ▸ among)
  rw [cutAt?, List.dropWhile_append_of_pos differ, List.takeWhile_append_of_pos differ,
    List.dropWhile_cons_of_neg (by simp), List.takeWhile_cons_of_neg (by simp), List.append_nil]

/-- A text is not cut when the separator does not stand in it. -/
theorem cutAt?_eq_none_of_not_mem
    (absent : separator ∉ text) :
    cutAt? separator text = none := by
  have nothing : text.dropWhile (· != separator) = [] := by
    refine List.dropWhile_eq_nil_iff.mpr fun character among => ?_
    simpa using fun (same : character = separator) => absent (same ▸ among)
  rw [cutAt?, nothing]

end Cut

/-! ## Words -/

/-- A text without blanks. -/
structure IsUnbroken (text : List Char) : Prop where
  /-- There is a character. -/
  nonempty : text ≠ []
  /-- No character is blank. -/
  noBlank : ∀ character ∈ text, isBlank character = false

instance (text : List Char) : Decidable (IsUnbroken text) :=
  decidable_of_iff (text ≠ [] ∧ text.all (!isBlank ·) = true)
    ⟨fun ⟨nonempty, noBlank⟩ => ⟨nonempty, by simpa using noBlank⟩,
      fun unbroken => ⟨unbroken.nonempty, by simpa using unbroken.noBlank⟩⟩

section Words

variable {word rest : List Char}

/-- Trimming leaves a text without blanks as it is. -/
theorem IsUnbroken.trimWhere_eq
    (unbroken : IsUnbroken word) :
    trimWhere isBlank word = word :=
  trimWhere_eq_self
    (fun character isFirst => unbroken.noBlank character (List.mem_of_head? isFirst))
    (fun character isLast => unbroken.noBlank character (List.mem_of_getLast? isLast))

@[simp] theorem words_space : words (' ' :: rest) = words rest := by
  rw [words, words, List.splitOnP_cons_eq_if_modifyHead, if_pos (by decide),
    List.filter_cons_of_neg (by simp)]

/-- A text without blanks is a word when a blank follows it. -/
theorem IsUnbroken.words_append
    (unbroken : IsUnbroken word) :
    words (word ++ ' ' :: rest) = word :: words rest := by
  rw [words, words,
    List.splitOnP_append_cons_of_forall_mem unbroken.noBlank ' ' (by decide),
    List.filter_cons_of_pos (by simpa using unbroken.nonempty)]

end Words

/-! ## Lines -/

/-- A line that no carriage return ends stays as it is. -/
theorem dropCarriageReturn_eq_self
    {line : List Char}
    (last : line.getLast? ≠ some '\r') :
    dropCarriageReturn line = line :=
  if_neg last

/-- Trimming the end of a line also drops its carriage return. -/
theorem trimEndWhere_dropCarriageReturn (line : List Char) :
    trimEndWhere isBlank (dropCarriageReturn line) = trimEndWhere isBlank line := by
  unfold dropCarriageReturn
  split
  · rename_i isLast
    obtain ⟨front, rfl⟩ := List.getLast?_eq_some_iff.mp isLast
    rw [List.dropLast_concat, trimEndWhere_append_of_dropped
      (List.forall_mem_singleton.mpr rfl)]
  · rfl

theorem trimWhere_dropCarriageReturn (line : List Char) :
    trimWhere isBlank (dropCarriageReturn line) = trimWhere isBlank line := by
  unfold dropCarriageReturn
  split
  · rename_i isLast
    obtain ⟨front, rfl⟩ := List.getLast?_eq_some_iff.mp isLast
    rw [List.dropLast_concat, trimWhere_append_of_dropped
      (List.forall_mem_singleton.mpr rfl)]
  · rfl

/-- The carriage return of a line is the one of its end. -/
theorem dropCarriageReturn_append
    (front : List Char)
    {text : List Char}
    (nonempty : text ≠ []) :
    dropCarriageReturn (front ++ text) = front ++ dropCarriageReturn text := by
  cases text using List.reverseRecOn with
  | nil => exact absurd rfl nonempty
  | append_singleton start last _ =>
      unfold dropCarriageReturn
      rw [← List.append_assoc, List.getLast?_concat, List.getLast?_concat, List.dropLast_concat,
        List.dropLast_concat]
      split <;> simp

/-- A text that another character ends has no carriage return to drop. -/
theorem dropCarriageReturn_append_of_getLast?
    {front : List Char}
    {last : Char}
    (isLast : front.getLast? = some last)
    (noReturn : last ≠ '\r')
    (text : List Char) :
    dropCarriageReturn (front ++ text) = front ++ dropCarriageReturn text := by
  by_cases nothing : text = []
  · subst nothing
    rw [List.append_nil]
    refine (dropCarriageReturn_eq_self ?_).trans (List.append_nil front).symm
    simpa [isLast] using noReturn
  · exact dropCarriageReturn_append front nothing

/-- Lines that are joined by line feeds are the lines of the whole, up to carriage returns. -/
theorem lineLists_intercalate_append
    {lines : List (List Char)}
    {line : List Char}
    (oneLine : ∀ other ∈ lines ++ [line], '\n' ∉ other)
    (nonempty : line ≠ []) :
    lineLists (['\n'].intercalate (lines ++ [line])) = lines.map dropCarriageReturn ++ [line] := by
  unfold lineLists
  rw [List.splitOn_intercalate '\n' oneLine (by simp)]
  simp [nonempty]

/-- A last line feed ends the line in front of it. -/
theorem lineLists_intercalate_append_nil
    {lines : List (List Char)}
    (oneLine : ∀ other ∈ lines, '\n' ∉ other) :
    lineLists (['\n'].intercalate (lines ++ [[]])) = lines.map dropCarriageReturn := by
  have oneLines : ∀ other ∈ lines ++ [[]], '\n' ∉ other :=
    List.forall_mem_append.mpr ⟨oneLine, by simp⟩
  unfold lineLists
  rw [List.splitOn_intercalate '\n' oneLines (by simp)]
  simp

/-- Lines that are joined by line feeds are the lines of the whole. -/
theorem lineLists_intercalate
    {lines : List (List Char)}
    (oneLine : ∀ line ∈ lines, '\n' ∉ line)
    (nonempty : ∀ line ∈ lines, line ≠ [])
    (noReturn : ∀ line ∈ lines, line.getLast? ≠ some '\r') :
    lineLists (['\n'].intercalate lines) = lines := by
  cases lines using List.reverseRecOn with
  | nil => rfl
  | append_singleton lines line _ =>
      have kept : lines.map dropCarriageReturn = lines := by
        refine (List.map_congr_left fun other among => ?_).trans (List.map_id lines)
        exact dropCarriageReturn_eq_self (noReturn other (by simp [among]))
      rw [lineLists_intercalate_append oneLine (nonempty line (by simp)), kept]

/-- The pieces between the occurrences of a character do not hold it. -/
theorem not_mem_of_mem_splitOn
    {separator : Char}
    {text piece : List Char}
    (among : piece ∈ text.splitOn separator) :
    separator ∉ piece := by
  induction text generalizing piece with
  | nil =>
      rw [List.splitOn_nil, List.mem_singleton] at among
      simp [among]
  | cons character rest inductionHypothesis =>
      rw [List.splitOn_cons_eq_if_modifyHead] at among
      split at among
      · rcases List.mem_cons.mp among with rfl | later
        · simp
        · exact inductionHypothesis later
      · rename_i other
        cases pieces : rest.splitOn separator with
        | nil => exact absurd pieces (List.splitOn_ne_nil separator rest)
        | cons first others =>
            rw [pieces, List.modifyHead_cons] at among
            rcases List.mem_cons.mp among with rfl | later
            · have absent := @inductionHypothesis first (by simp [pieces])
              have different : character ≠ separator := by simpa using other
              rw [List.mem_cons, not_or]
              exact ⟨different.symm, absent⟩
            · exact inductionHypothesis (by simp [pieces, later])

/-- A line of a text is a piece between line feeds, up to its carriage return. -/
theorem exists_piece_of_mem_lineLists
    {text line : List Char}
    (isLine : line ∈ lineLists text) :
    ∃ piece ∈ text.splitOn '\n', line <+: piece := by
  unfold lineLists at isLine
  simp only [List.mem_append, List.mem_map, List.mem_filter, Option.mem_toList] at isLine
  rcases isLine with ⟨piece, isPiece, rfl⟩ | ⟨isLast, -⟩
  · refine ⟨piece, List.dropLast_subset _ isPiece, ?_⟩
    unfold dropCarriageReturn
    split
    · exact List.dropLast_prefix piece
    · exact List.prefix_rfl
  · exact ⟨line, List.mem_of_getLast? isLast, List.prefix_rfl⟩

/-- The lines of a text hold no line feed. -/
theorem not_mem_of_mem_lineLists
    {text line : List Char}
    (isLine : line ∈ lineLists text) :
    '\n' ∉ line := by
  obtain ⟨piece, isPiece, starts⟩ := exists_piece_of_mem_lineLists isLine
  exact fun found => not_mem_of_mem_splitOn isPiece (starts.subset found)

end Text
end TemplatedMarkup
