import TemplatedMarkup.Proofs.Template.Source
import TemplatedMarkup.Template.Render

/-!
# The base page

The page that documents extend has three blocks: its title, the rest of its head, and its body.
It is read as a template with these blocks, and its text is what surrounds them with what they are
shown as in between.
-/

namespace TemplatedMarkup
namespace Template

/-- The base page up to its title. -/
def basePageStart : String :=
  "<!DOCTYPE html>\n<html lang=\"en\">\n<head>\n<meta charset=\"utf-8\">\n<title>"

/-- The base page between its title and the rest of its head. -/
def basePageTitled : String := "</title>\n"

/-- The base page between its head and its body. -/
def basePageMiddle : String := "\n</head>\n<body>\n"

/-- The base page behind its body. -/
def basePageEnd : String := "\n</body>\n</html>\n"

/-- The base page with given texts in the places of its blocks. -/
def basePageWith (title head body : String) : String :=
  basePageStart ++ title ++ basePageTitled ++ head ++ basePageMiddle ++ body ++ basePageEnd

/-- The title of the base page: a name of the context, or nothing. -/
def titleChain : FilterChain :=
  ⟨.path "title" [], [("default", some (.literal (.str "")))]⟩

/-- The base page as a template. -/
def baseTemplate : Template where
  parent := none
  nodes := [
    .text basePageStart,
    .block "title" [.variable titleChain],
    .text basePageTitled,
    .block "head" [],
    .text basePageMiddle,
    .block "body" [],
    .text basePageEnd]

/-- The block of the title as it is written. -/
def titleSource : String :=
  "\x7b% block title %\x7d\x7b\x7b title|default:\"\" \x7d\x7d\x7b% endblock %\x7d"

/-- The block of the rest of the head as it is written. -/
def headSource : String :=
  "\x7b% block head %\x7d\x7b% endblock %\x7d"

/-- The block of the body as it is written. -/
def bodySource : String :=
  "\x7b% block body %\x7d\x7b% endblock %\x7d"

/-- The base page is what surrounds its blocks, with the blocks in between. -/
theorem basePage_eq : basePage = basePageWith titleSource headSource bodySource := by
  decide +kernel

/-! ## Reading -/

section Reading

variable {reading : Reading} {line : Nat} {rest : List Char}

/-- The inside of the block of the title as it is written. -/
def titleInside : List Char :=
  DelimitedKind.variable.source " title|default:\"\" ".toList

theorem toList_titleSource : titleSource.toList = blockSource "title".toList titleInside := by
  decide

theorem toList_headSource : headSource.toList = blockSource "head".toList [] := by
  decide

theorem toList_bodySource : bodySource.toList = blockSource "body".toList [] := by
  decide

/-- A text without braces is read before a block. -/
theorem readSource_text_block
    {text name inside : List Char}
    (noBrace : '{' ∉ text)
    (closes : ¬['%', '}'] <:+: name) :
    reading.readSource line (text ++ (blockSource name inside ++ rest)) =
      (reading.addText text).readSource (lineAfter line text)
        (blockSource name inside ++ rest) := by
  have encloses : DelimitedKind.tag.Encloses (tagContent "block".toList name) :=
    DelimitedKind.encloses_tag (not_infix_tagContent (by decide) closes)
  rw [blockSource, List.append_assoc]
  exact Reading.readSource_text (hasNoOpening_of_not_mem noBrace)
    (fun isLast => noBrace (List.mem_of_getLast? isLast)) encloses

/-- A block with nothing inside is read first. -/
theorem readSource_emptyBlock
    {name : List Char}
    (outermost : reading.levels = [])
    (new : String.ofList name ∉ reading.blockNames)
    (unbroken : Text.IsUnbroken name)
    (closes : ¬['%', '}'] <:+: name) :
    reading.readSource line (blockSource name [] ++ rest) =
      (reading.addBlock (.ofList name) []).readSource
        (lineAfter line (blockSource name [])) rest :=
  Reading.readSource_block outermost new unbroken closes fun _ => rfl

theorem readSource_titleBlock
    (outermost : reading.levels = [])
    (new : "title" ∉ reading.blockNames) :
    reading.readSource line (blockSource "title".toList titleInside ++ rest) =
      (reading.addBlock "title" [.variable titleChain]).readSource
        (lineAfter line (blockSource "title".toList titleInside)) rest := by
  have encloses : DelimitedKind.variable.Encloses " title|default:\"\" ".toList :=
    ⟨by decide, by decide⟩
  refine Reading.readSource_block outermost new (by decide) (by decide) fun line => ?_
  exact Reading.readSource_source encloses rfl

end Reading

/-- The base page is read as the template with its blocks. -/
theorem parse_basePage : parse basePage = .ok baseTemplate := by
  have source : basePage.toList = basePageStart.toList ++
      (blockSource "title".toList titleInside ++ (basePageTitled.toList ++
        (blockSource "head".toList [] ++ (basePageMiddle.toList ++
          (blockSource "body".toList [] ++ basePageEnd.toList))))) := by
    rw [basePage_eq, basePageWith]
    simp only [String.toList_append, List.append_assoc, toList_titleSource, toList_headSource,
      toList_bodySource]
  -- One rewriting for each text and each block.
  rw [Reading.parse_eq, source, readSource_text_block (by decide) (by decide),
    readSource_titleBlock rfl (by decide), readSource_text_block (by decide) (by decide),
    readSource_emptyBlock rfl (by decide) (by decide) (by decide),
    readSource_text_block (by decide) (by decide),
    readSource_emptyBlock rfl (by decide) (by decide) (by decide),
    Reading.readSource_text_end (hasNoOpening_of_not_mem (by decide)) (by decide)]
  rfl

/-- The base page names no filter that needs a definition. -/
theorem checkFilters_baseTemplate : checkFilters .empty baseTemplate = .ok () := by
  have names : baseTemplate.filterNames = ["default"] := rfl
  rw [checkFilters, names]
  rfl

/-! ## Showing -/

/-- The base page is shown with what its blocks are shown as. -/
theorem renderAll_baseTemplate
    {surroundings : Surroundings}
    {overrides : Overrides}
    {scope : Scope}
    {title head body : String}
    (showsTitle : (Node.block "title" [.variable titleChain]).render surroundings overrides scope =
      .ok title)
    (showsHead : (Node.block "head" []).render surroundings overrides scope = .ok head)
    (showsBody : (Node.block "body" []).render surroundings overrides scope = .ok body) :
    Node.renderAll surroundings overrides baseTemplate.nodes scope =
      .ok (basePageWith title head body) := by
  simp only [baseTemplate, Node.renderAll, showsTitle, showsHead, showsBody]
  simp only [Node.render, bind, Except.bind, pure, Except.pure, basePageWith, String.append_assoc,
    String.append_empty]

/-- A context without a title leaves the title of the base page empty. -/
theorem eval_titleChain
    {scope : Scope}
    (untitled : scope "title" = none) :
    titleChain.eval .empty scope = .ok ⟨.str "", true⟩ := by
  have start : titleChain.base.eval scope = ⟨.str "", false⟩ := by
    simp [titleChain, Operand.eval, valueAt?, untitled]
  have isDefault : BuiltinFilter.ofName? "default" = some .default := by decide
  rw [FilterChain.eval, start]
  rfl

end Template
end TemplatedMarkup
