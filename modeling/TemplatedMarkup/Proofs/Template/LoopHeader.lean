import TemplatedMarkup.Proofs.Template.Position
import TemplatedMarkup.Proofs.Template.SpacedChain

/-!
# Headers of loops

The header of a loop is cut into words and its sequence is put together from them again, with one
space between two words.  So the sequence is read as a variable is, unless its last word asks for
the items in reverse.
-/

namespace TemplatedMarkup
namespace Template

/-- The name and the sequence of a loop, as they are written. -/
def loopText (target sequence : List Char) : List Char :=
  target ++ ' ' :: ("in".toList ++ ' ' :: sequence)

section Loops

variable {target sequence : List Char} {line : Nat}

theorem words_loopText
    (unbroken : Text.IsUnbroken target) :
    Text.words (loopText target sequence) = target :: "in".toList :: Text.words sequence := by
  have isWord : Text.IsUnbroken "in".toList := by decide
  rw [loopText, unbroken.words_append, isWord.words_append]

theorem isUnbroken_of_isIdentifier (identifier : isIdentifier target = true) :
    Text.IsUnbroken target := by
  refine ⟨?_, noBlank_of_isIdentifier identifier⟩
  rintro rfl
  contradiction

theorem not_mem_of_isIdentifier
    {character : Char}
    (identifier : isIdentifier target = true)
    (noPart : Text.isNamePart character = false) :
    character ∉ target := by
  intro among
  rw [isNamePart_of_isIdentifier identifier character among] at noPart
  contradiction

/-- An identifier is the only name of a loop. -/
theorem loopTargets_singleton (identifier : isIdentifier target = true) :
    loopTargets [target] = [target] := by
  have noComma : ',' ∉ target := not_mem_of_isIdentifier identifier (by decide)
  rw [loopTargets, List.intercalate_singleton, List.splitOn_eq_singleton noComma,
    List.map_singleton, (isUnbroken_of_isIdentifier identifier).trimWhere_eq]

/-- The header of a loop over one name is read from the words of its sequence. -/
theorem readLoop_loopText
    (identifier : isIdentifier target = true)
    (notIn : target ≠ "in".toList) :
    readLoop (loopText target sequence) line =
      (let (iterable, reversed) := loopIterable (Text.words sequence)
      if iterable.isEmpty then .error (loopFormat line)
      else do
        let chain ← readChain ([' '].intercalate iterable) line
        return ⟨[.ofList target], chain, reversed⟩) := by
  unfold readLoop
  simp only [words_loopText (isUnbroken_of_isIdentifier identifier)]
  have behind : (target :: "in".toList :: Text.words sequence).dropWhile (!· == "in".toList) =
      "in".toList :: Text.words sequence := by
    rw [List.dropWhile_cons_of_pos (by simpa using notIn), List.dropWhile_cons_of_neg (by simp)]
  have front : (target :: "in".toList :: Text.words sequence).takeWhile (!· == "in".toList) =
      [target] := by
    rw [List.takeWhile_cons_of_pos (by simpa using notIn), List.takeWhile_cons_of_neg (by simp)]
  simp only [behind, front, List.tail_cons, loopTargets_singleton identifier, List.all_cons,
    List.all_nil, identifier, Bool.and_self, if_true, List.map_cons, List.map_nil]

/-- The header of a loop closes its tag only if the sequence does. -/
theorem not_infix_loopText
    (identifier : isIdentifier target = true)
    (closes : ¬['%', '}'] <:+: sequence) :
    ¬['%', '}'] <:+: loopText target sequence := by
  have noPercent : '%' ∉ target := not_mem_of_isIdentifier identifier (by decide)
  have written : loopText target sequence = (target ++ " in ".toList) ++ sequence := by
    simp [loopText]
  rw [written]
  refine Text.not_infix_append_of_pair (fun inside => ?_) closes (.inl (by simp))
  exact absurd (inside.subset List.mem_cons_self) (by simpa using noPercent)

/-- The header of a loop is trimmed if its sequence is. -/
theorem trimWhere_loopText
    (identifier : isIdentifier target = true)
    (trimmed : Text.trimWhere Text.isBlank sequence = sequence)
    (nonempty : sequence ≠ []) :
    Text.trimWhere Text.isBlank (loopText target sequence) = loopText target sequence := by
  have unbroken := isUnbroken_of_isIdentifier identifier
  refine Text.trimWhere_eq_self (fun character isFirst => ?_) (fun character isLast => ?_)
  · obtain ⟨first, rest, rfl⟩ := List.exists_cons_of_ne_nil unbroken.nonempty
    obtain rfl := Option.some.inj isFirst
    exact unbroken.noBlank _ List.mem_cons_self
  · refine (Text.ends_of_trimWhere_eq_self trimmed).2 character ?_
    obtain ⟨first, rest, rfl⟩ := List.exists_cons_of_ne_nil nonempty
    simpa [loopText, List.getLast?_append] using isLast

/-- The end tag of a loop without a body closes it. -/
theorem readTag_endfor (line : Nat) (header : LoopHeader) :
    (Reading.start.push (.loop header)).begin.readTag " endfor ".toList line =
      .ok (Reading.start.add (.loop header [] [])).begin := by
  have word : firstWord " endfor ".toList = "endfor".toList := by decide
  have nothing : behindFirstWord " endfor ".toList = [] := by decide
  rw [Reading.readTag, word, nothing]
  rfl

/-- The source of a loop without a body is read as its header. -/
theorem parse_loopSource
    (closes : ¬['%', '}'] <:+: loopText target sequence)
    (trimmed : Text.trimWhere Text.isBlank (loopText target sequence) =
      loopText target sequence) :
    parse (.ofList (DelimitedKind.tag.source (tagContent "for".toList (loopText target sequence)) ++
        DelimitedKind.tag.source " endfor ".toList)) = (do
      let header ← readLoop (loopText target sequence) 1
      return ⟨none, [.loop header [] []]⟩) := by
  have noEnd (opened : OpenTag) : String.ofList "for".toList ∉ opened.ends := by
    cases opened <;> simp [OpenTag.ends]
  have encloses : DelimitedKind.tag.Encloses (tagContent "for".toList (loopText target sequence)) :=
    DelimitedKind.encloses_tag (not_infix_tagContent (by decide) closes)
  have opened : Reading.start.readPiece
      ⟨.delimited .tag, tagContent "for".toList (loopText target sequence), 1⟩ = (do
        let header ← readLoop (loopText target sequence) 1
        return (Reading.start.push (.loop header)).begin) := by
    rw [Reading.readPiece]
    simp only
    rw [Reading.readTag_tagContent (by decide) trimmed noEnd, String.ofList_toList,
      Reading.readStart.eq_4]
    simp only [bind_assoc, pure_bind]
  rw [Reading.parse_eq, String.toList_ofList, Reading.readSource_source_eq_bind encloses, opened]
  simp only [bind_assoc, pure_bind]
  refine bind_congr fun header => ?_
  have closed := Reading.readPiece_tag (readTag_endfor (lineAfter 1
    (DelimitedKind.tag.source (tagContent "for".toList (loopText target sequence)))) header)
  rw [← List.append_nil (DelimitedKind.tag.source " endfor ".toList),
    Reading.readSource_source (DelimitedKind.encloses_tag (by decide)) closed,
    Reading.readSource_nil]
  rfl

theorem ne_nil_of_readChain
    {chain : FilterChain}
    (isChain : readChain sequence line = .ok chain) :
    sequence ≠ [] := by
  rintro rfl
  contradiction

/-- The loop over a sequence and the loop over its words are read alike. -/
theorem readLoop_eq_ok_iff
    {chain : FilterChain}
    (identifier : isIdentifier target = true)
    (notIn : target ≠ "in".toList)
    (trimmed : Text.trimWhere Text.isBlank sequence = sequence)
    (isChain : readChain sequence line = .ok chain)
    (isSpaced : chain.IsSpaced) :
    readLoop (loopText target sequence) line = .ok ⟨[.ofList target], chain, false⟩ ↔
      (Text.words sequence).getLast? ≠ some "reversed".toList := by
  rw [readLoop_loopText identifier notIn, loopIterable]
  constructor
  · intro read isReversed
    rw [if_pos isReversed] at read
    simp only at read
    split at read
    · contradiction
    · obtain ⟨other, -, isHeader⟩ := exists_of_bind_eq_ok read
      have isFalse := congrArg LoopHeader.reversed (Except.ok.inj isHeader)
      contradiction
  · intro forward
    have collapsed := readChain_of_collapses (Text.collapses_spacedWords trimmed) isChain isSpaced
    rw [Text.spacedWords] at collapsed
    have last := (Text.ends_of_trimWhere_eq_self trimmed).2
    have more := Text.words_ne_nil (ne_nil_of_readChain isChain) last
    rw [if_neg forward]
    simp only [List.isEmpty_eq_false_iff.mpr more, Bool.false_eq_true, if_false, collapsed]
    rfl

end Loops

section Sources

variable {target sequence : String}

/-- A loop over a trimmed sequence is read as its header. -/
theorem parse_loop_eq
    (identifier : isIdentifier target.toList = true)
    (trimmed : Text.trimWhere Text.isBlank sequence.toList = sequence.toList)
    (nonempty : sequence.toList ≠ [])
    (closes : ¬['%', '}'] <:+: sequence.toList) :
    parse ("\x7b% for " ++ target ++ " in " ++ sequence ++ " %\x7d\x7b% endfor %\x7d") = (do
      let header ← readLoop (loopText target.toList sequence.toList) 1
      return ⟨none, [.loop header [] []]⟩) := by
  rw [← parse_loopSource (not_infix_loopText identifier closes)
    (trimWhere_loopText identifier trimmed nonempty)]
  congr 1
  rw [← String.toList_inj]
  simp [DelimitedKind.source, DelimitedKind.openMark, DelimitedKind.closeMark, tagContent, loopText]

/--
A trimmed sequence that is read as a filter chain, in whose string constants blanks are single
spaces, is read in the tag of a loop as the same chain, from the first item to the last, exactly if
its last word does not ask for the items in reverse.
-/
theorem parse_loop_eq_ok_iff
    {chain : FilterChain}
    {line : Nat}
    (identifier : isIdentifier target.toList = true)
    (notIn : target ≠ "in")
    (trimmed : Text.trim sequence = sequence)
    (closes : ¬['%', '}'] <:+: sequence.toList)
    (isChain : readChain sequence.toList line = .ok chain)
    (isSpaced : chain.IsSpaced) :
    parse ("\x7b% for " ++ target ++ " in " ++ sequence ++ " %\x7d\x7b% endfor %\x7d") =
        .ok ⟨none, [.loop ⟨[target], chain, false⟩ [] []]⟩ ↔
      (Text.words sequence.toList).getLast? ≠ some "reversed".toList := by
  have notInList : target.toList ≠ "in".toList := fun same => notIn (String.toList_inj.mp same)
  have trimmedList : Text.trimWhere Text.isBlank sequence.toList = sequence.toList := by
    simpa [Text.trim] using congrArg String.toList trimmed
  have isChainOnFirst := refines_readChain line 1 sequence.toList chain isChain
  rw [parse_loop_eq identifier trimmedList (ne_nil_of_readChain isChain) closes,
    ← readLoop_eq_ok_iff identifier notInList trimmedList isChainOnFirst isSpaced,
    String.ofList_toList]
  constructor
  · intro parsed
    obtain ⟨header, read, isTemplate⟩ := exists_of_bind_eq_ok parsed
    obtain ⟨sameLoop, -⟩ := List.cons.inj (Template.mk.inj (Except.ok.inj isTemplate)).2
    rw [read, (Node.loop.inj sameLoop).1]
  · intro read
    rw [read]
    rfl

end Sources

/-- A constant with the words of headers in it. -/
theorem parse_loop_eq_ok_iff_constant :
    let chain : FilterChain := ⟨.literal (.str "a in reversed"), []⟩
    Text.trim "'a in reversed'" = "'a in reversed'" ∧
      ¬['%', '}'] <:+: "'a in reversed'".toList ∧
      readChain "'a in reversed'".toList 1 = .ok chain ∧ chain.IsSpaced ∧
      parse ("\x7b% for " ++ "x" ++ " in " ++ "'a in reversed'" ++ " %\x7d\x7b% endfor %\x7d") =
        .ok ⟨none, [.loop ⟨["x"], chain, false⟩ [] []]⟩ := by
  intro chain
  have trimmed : Text.trim "'a in reversed'" = "'a in reversed'" := by cbv
  have closes : ¬['%', '}'] <:+: "'a in reversed'".toList := by decide
  have isChain : readChain "'a in reversed'".toList 1 = .ok chain := by
    have written : "'a in reversed'".toList = quotedBy '\'' "a in reversed".toList := by decide
    rw [written, readChain_quotedBy (.inl rfl) (by decide), String.ofList_toList]
  have isSpaced : chain.IsSpaced :=
    ⟨Text.isSpaced_iff.mpr ⟨by decide, by decide⟩, fun _ among => absurd among List.not_mem_nil⟩
  have forward : (Text.words "'a in reversed'".toList).getLast? ≠ some "reversed".toList := by
    decide
  exact ⟨trimmed, closes, isChain, isSpaced,
    (@parse_loop_eq_ok_iff "x" "'a in reversed'" chain 1 (by decide) (by decide) trimmed closes
      isChain isSpaced).mpr forward⟩

/-- A path that is the word that asks for the items in reverse is not read as a sequence. -/
theorem parse_loop_reversed :
    Text.trim "reversed" = "reversed" ∧ ¬['%', '}'] <:+: "reversed".toList ∧
      readChain "reversed".toList 1 = .ok ⟨.path "reversed" [], []⟩ ∧
      parse ("\x7b% for " ++ "x" ++ " in " ++ "reversed" ++ " %\x7d\x7b% endfor %\x7d") =
        .error (loopFormat 1) := by
  have trimmed : Text.trim "reversed" = "reversed" := by cbv
  have closes : ¬['%', '}'] <:+: "reversed".toList := by decide
  have isName : Expression.IsName "reversed" := ⟨⟨rfl, by simp; decide⟩, rfl⟩
  have isPath : IsPath "reversed" [] :=
    ⟨tokenize_eq_iff_isName.mpr isName, by decide, by simp, by simp⟩
  have isChain := isPath.readChain 1
  rw [pathText_nil] at isChain
  have isWord : Text.words "reversed".toList = ["reversed".toList] := by decide
  have trimmedList := isPath.isUnbroken.trimWhere_eq
  rw [pathText_nil] at trimmedList
  refine ⟨trimmed, closes, isChain, ?_⟩
  rw [parse_loop_eq (by decide) trimmedList (by decide) closes,
    readLoop_loopText (by decide) (by decide), isWord]
  rfl

end Template
end TemplatedMarkup
