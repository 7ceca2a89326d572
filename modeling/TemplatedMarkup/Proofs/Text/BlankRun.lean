import TemplatedMarkup.Proofs.Text.Trim

/-!
# Runs of blanks

A text is put together from its words with one space between them: every run of blanks gives way
to a single space.  This leaves a text alone whose blanks are single spaces, and it can be followed
through trimming and cutting.
-/

namespace TemplatedMarkup
namespace Text

/-- A text is another one in which every run of blanks has given way to one space. -/
inductive Collapses : List Char → List Char → Prop where
  | nil : Collapses [] []
  /-- Other characters are kept. -/
  | keep {character : Char} {text collapsed : List Char} :
      isBlank character = false → Collapses text collapsed →
      Collapses (character :: text) (character :: collapsed)
  /-- A space stands for one or more blanks. -/
  | blanks {run text collapsed : List Char} :
      run ≠ [] → (∀ character ∈ run, isBlank character = true) → Collapses text collapsed →
      Collapses (run ++ text) (' ' :: collapsed)

/-- The blanks of a text are single spaces. -/
structure IsSpaced (text : List Char) : Prop where
  /-- All blanks are spaces. -/
  isSpace : ∀ character ∈ text, isBlank character = true → character = ' '
  /-- No two spaces follow each other. -/
  single : ¬[' ', ' '] <:+: text

/-- Whether the blanks of a text are single spaces can be computed. -/
theorem isSpaced_iff {text : List Char} :
    IsSpaced text ↔
      text.all (fun character => isBlank character → character = ' ') = true ∧
        ¬[' ', ' '] <:+: text := by
  simp only [List.all_eq_true, decide_eq_true_eq]
  exact ⟨fun isSpaced => ⟨isSpaced.isSpace, isSpaced.single⟩,
    fun ⟨isSpace, single⟩ => ⟨isSpace, single⟩⟩

theorem IsSpaced.ofCons
    {character : Char}
    {text : List Char}
    (isSpaced : IsSpaced (character :: text)) :
    IsSpaced text :=
  ⟨(List.forall_mem_cons.mp isSpaced.isSpace).2, fun inside =>
    isSpaced.single (inside.trans (List.suffix_cons _ _).isInfix)⟩

theorem isBlank_space : isBlank ' ' = true := by decide

namespace Collapses

variable {text collapsed other otherCollapsed : List Char} {character : Char}

theorem blank (isBlank : isBlank character = true) (collapses : Collapses text collapsed) :
    Collapses (character :: text) (' ' :: collapsed) :=
  blanks (List.cons_ne_nil _ _) (List.forall_mem_singleton.mpr isBlank) collapses

theorem append
    (front : Collapses text collapsed)
    (behind : Collapses other otherCollapsed) :
    Collapses (text ++ other) (collapsed ++ otherCollapsed) := by
  induction front with
  | nil => exact behind
  | keep notBlank _ inductionHypothesis => exact inductionHypothesis.keep notBlank
  | blanks nonempty areBlank _ inductionHypothesis =>
      rw [List.append_assoc]
      exact inductionHypothesis.blanks nonempty areBlank

theorem reverse (collapses : Collapses text collapsed) :
    Collapses text.reverse collapsed.reverse := by
  induction collapses with
  | nil => exact .nil
  | keep notBlank _ inductionHypothesis =>
      rw [List.reverse_cons, List.reverse_cons]
      exact inductionHypothesis.append (.keep notBlank .nil)
  | @blanks run text collapsed nonempty areBlank _ inductionHypothesis =>
      have reversed := Collapses.nil.blanks (List.reverse_ne_nil_iff.mpr nonempty)
        fun character among => areBlank character (List.mem_reverse.mp among)
      rw [List.reverse_append, List.reverse_cons]
      simpa using inductionHypothesis.append reversed

/-! ## Ends -/

/-- A character that is no blank stays at the start. -/
theorem exists_of_cons
    (collapses : Collapses (character :: text) collapsed)
    (notBlank : isBlank character = false) :
    ∃ rest, collapsed = character :: rest ∧ Collapses text rest := by
  generalize whole : character :: text = front at collapses
  cases collapses with
  | nil => contradiction
  | keep _ rest =>
      obtain ⟨rfl, rfl⟩ := List.cons.inj whole
      exact ⟨_, rfl, rest⟩
  | @blanks run text collapsed nonempty areBlank _ =>
      obtain ⟨first, others, rfl⟩ := List.exists_cons_of_ne_nil nonempty
      obtain ⟨rfl, -⟩ := List.cons.inj whole
      rw [areBlank _ List.mem_cons_self] at notBlank
      contradiction

/-- A character that is no blank stays at the end. -/
theorem exists_of_concat
    (collapses : Collapses (text ++ [character]) collapsed)
    (notBlank : isBlank character = false) :
    ∃ rest, collapsed = rest ++ [character] ∧ Collapses text rest := by
  have reversed := collapses.reverse
  rw [List.reverse_append, List.reverse_singleton, List.singleton_append] at reversed
  obtain ⟨rest, isRest, behind⟩ := reversed.exists_of_cons notBlank
  refine ⟨rest.reverse, ?_, by simpa using behind.reverse⟩
  rw [← List.reverse_reverse collapsed, isRest, List.reverse_cons]

/-- A run of blanks that starts earlier still gives way to one space. -/
theorem cons_of_isBlank
    {first : Char}
    (collapses : Collapses (first :: text) collapsed)
    (isBlank : Text.isBlank first = true)
    (isMore : Text.isBlank character = true) :
    Collapses (character :: first :: text) collapsed := by
  generalize whole : first :: text = front at collapses ⊢
  cases collapses with
  | nil => contradiction
  | keep notBlank _ =>
      obtain ⟨rfl, -⟩ := List.cons.inj whole
      rw [isBlank] at notBlank
      contradiction
  | blanks nonempty areBlank rest =>
      rw [← List.cons_append]
      exact rest.blanks (List.cons_ne_nil _ _) (List.forall_mem_cons.mpr ⟨isMore, areBlank⟩)

/-! ## Trimming -/

theorem dropWhile (collapses : Collapses text collapsed) :
    Collapses (text.dropWhile isBlank) (collapsed.dropWhile isBlank) := by
  induction collapses with
  | nil => exact .nil
  | @keep character text collapsed notBlank rest _ =>
      rw [List.dropWhile_cons_of_neg (by simp [notBlank]),
        List.dropWhile_cons_of_neg (by simp [notBlank])]
      exact rest.keep notBlank
  | blanks _ areBlank _ inductionHypothesis =>
      rw [List.dropWhile_append_of_pos areBlank, List.dropWhile_cons_of_pos isBlank_space]
      exact inductionHypothesis

theorem trimWhere (collapses : Collapses text collapsed) :
    Collapses (trimWhere isBlank text) (trimWhere isBlank collapsed) :=
  collapses.dropWhile.reverse.dropWhile.reverse

/-! ## Texts that are left alone -/

/-- A text whose blanks are single spaces is left alone. -/
theorem eq_of_isSpaced
    (collapses : Collapses text collapsed)
    (isSpaced : IsSpaced text) :
    collapsed = text := by
  induction collapses with
  | nil => rfl
  | keep _ _ inductionHypothesis => rw [inductionHypothesis isSpaced.ofCons]
  | @blanks run text collapsed nonempty areBlank _ inductionHypothesis =>
      obtain ⟨isSpace, single⟩ := isSpaced
      have spaces : ∀ character ∈ run, character = ' ' := fun character among =>
        isSpace character (List.mem_append_left _ among) (areBlank character among)
      -- A second character of the run would be a second space.
      have isRun : run = [' '] := by
        match run, nonempty, spaces with
        | [first], _, spaces => rw [spaces first (by simp)]
        | first :: second :: others, _, spaces =>
            rw [spaces first (by simp), spaces second (by simp)] at single
            exact absurd ⟨[], others ++ text, by simp⟩ single
      subst isRun
      rw [inductionHypothesis (IsSpaced.ofCons ⟨isSpace, single⟩)]
      rfl

theorem eq_of_noBlank
    (collapses : Collapses text collapsed)
    (noBlank : ∀ character ∈ text, isBlank character = false) :
    collapsed = text := by
  refine collapses.eq_of_isSpaced ⟨fun character among isBlank => ?_, fun inside => ?_⟩
  · rw [noBlank character among] at isBlank
    contradiction
  · have absent := noBlank ' ' (inside.subset List.mem_cons_self)
    rw [isBlank_space] at absent
    contradiction

end Collapses

/-! ## Words -/

section Words

variable {first second : Char} {rest : List Char}

theorem words_cons_of_isBlank
    (blank : isBlank first = true) :
    words (first :: rest) = words rest := by
  rw [words, words, List.splitOnP_cons_eq_if_modifyHead, if_pos blank,
    List.filter_cons_of_neg (by simp)]

/-- A word of one character. -/
theorem words_cons_of_head?
    (notBlank : isBlank first = false)
    (ends : ∀ character ∈ rest.head?, isBlank character = true) :
    words (first :: rest) = [first] :: words rest := by
  rw [words, words, List.splitOnP_cons_eq_if_modifyHead, if_neg (by simp [notBlank])]
  cases rest with
  | nil => simp
  | cons second rest =>
      rw [List.splitOnP_cons_eq_if_modifyHead, if_pos (ends second rfl)]
      simp

/-- A word goes on until a blank follows. -/
theorem exists_words_cons
    (notBlank : isBlank first = false)
    (goesOn : isBlank second = false) :
    ∃ word others, words (second :: rest) = word :: others ∧
      words (first :: second :: rest) = (first :: word) :: others := by
  obtain ⟨word, others, cut⟩ :=
    List.exists_cons_of_ne_nil (List.splitOnP_ne_nil isBlank rest)
  refine ⟨second :: word, others.filter (!·.isEmpty), ?_, ?_⟩
  · rw [words, List.splitOnP_cons_eq_if_modifyHead, if_neg (by simp [goesOn]), cut]
    simp
  · rw [words, List.splitOnP_cons_eq_if_modifyHead, if_neg (by simp [notBlank]),
      List.splitOnP_cons_eq_if_modifyHead, if_neg (by simp [goesOn]), cut]
    simp

/-- A text without words is blank. -/
theorem isBlank_of_words_eq_nil
    {text : List Char}
    (noWords : words text = []) :
    ∀ character ∈ text, isBlank character = true := by
  induction text with
  | nil => exact fun _ among => absurd among List.not_mem_nil
  | cons first rest inductionHypothesis =>
      cases blank : isBlank first with
      | true =>
          rw [words_cons_of_isBlank blank] at noWords
          exact List.forall_mem_cons.mpr ⟨blank, inductionHypothesis noWords⟩
      | false =>
          rw [words, List.splitOnP_cons_eq_if_modifyHead, if_neg (by simp [blank])] at noWords
          obtain ⟨word, others, cut⟩ :=
            List.exists_cons_of_ne_nil (List.splitOnP_ne_nil isBlank rest)
          simp [cut] at noWords

theorem words_ne_nil
    {text : List Char}
    (nonempty : text ≠ [])
    (last : ∀ character ∈ text.getLast?, isBlank character = false) :
    words text ≠ [] := by
  intro noWords
  have blank := isBlank_of_words_eq_nil noWords _ (List.getLast_mem nonempty)
  rw [last _ (List.getLast?_eq_some_getLast nonempty)] at blank
  contradiction

/-- The words of a text with single spaces between them. -/
def spacedWords (text : List Char) : List Char :=
  [' '].intercalate (words text)

/-- A word of one character stands in front of the other words. -/
theorem spacedWords_cons_of_head?
    (notBlank : isBlank first = false)
    (ends : ∀ character ∈ rest.head?, isBlank character = true)
    (more : words rest ≠ []) :
    spacedWords (first :: rest) = first :: ' ' :: spacedWords rest := by
  obtain ⟨word, others, isWords⟩ := List.exists_cons_of_ne_nil more
  rw [spacedWords, words_cons_of_head? notBlank ends, spacedWords, isWords,
    List.intercalate_cons_cons]
  rfl

theorem spacedWords_cons
    (notBlank : isBlank first = false)
    (goesOn : isBlank second = false) :
    spacedWords (first :: second :: rest) = first :: spacedWords (second :: rest) := by
  obtain ⟨word, others, isRest, isWhole⟩ := @exists_words_cons _ _ rest notBlank goesOn
  rw [spacedWords, isWhole, spacedWords, isRest]
  cases others with
  | nil => simp
  | cons other others => simp [List.intercalate_cons_cons]

/--
The words of a text with single spaces between them are the text with its runs of blanks collapsed,
if there is no blank at its end; a run at its start is left out.
-/
theorem collapses_spacedWords_of_getLast?
    {text : List Char}
    (last : ∀ character ∈ text.getLast?, isBlank character = false) :
    Collapses text
      (if text.head?.any isBlank then ' ' :: spacedWords text else spacedWords text) := by
  induction text with
  | nil => exact .nil
  | cons first rest inductionHypothesis =>
      match rest with
      | [] =>
          have notBlank : isBlank first = false := last first rfl
          rw [List.head?_cons, Option.any_some, if_neg (by simp [notBlank]), spacedWords,
            words_cons_of_head? notBlank (by simp)]
          exact .keep notBlank .nil
      | second :: rest =>
          have collapsed := inductionHypothesis last
          rw [List.head?_cons, Option.any_some] at collapsed ⊢
          rcases Bool.eq_false_or_eq_true (isBlank first) with blank | notBlank
          · rw [if_pos blank, spacedWords, words_cons_of_isBlank blank, ← spacedWords]
            split at collapsed
            · rename_i goesOn
              exact collapsed.cons_of_isBlank goesOn blank
            · exact collapsed.blank blank
          · rw [if_neg (by simp [notBlank])]
            split at collapsed
            · rename_i ends
              have more : words (second :: rest) ≠ [] := words_ne_nil (List.cons_ne_nil _ _) last
              rw [spacedWords_cons_of_head? notBlank (by simpa using ends) more]
              exact collapsed.keep notBlank
            · rename_i goesOn
              rw [spacedWords_cons notBlank (by simpa using goesOn)]
              exact collapsed.keep notBlank

/-- The words of a trimmed text with single spaces between them are the text, collapsed. -/
theorem collapses_spacedWords
    {text : List Char}
    (trimmed : trimWhere isBlank text = text) :
    Collapses text (spacedWords text) := by
  obtain ⟨head, last⟩ := ends_of_trimWhere_eq_self trimmed
  have collapsed := collapses_spacedWords_of_getLast? last
  rwa [if_neg] at collapsed
  cases text with
  | nil => simp
  | cons first rest => simpa using head

end Words

end Text
end TemplatedMarkup
