import LayoutMarkup.Proofs.Call.Rewriting
import LayoutMarkup.Proofs.Template.Reread

/-! Templates written again. What a reprintable template is read back as is written as the template
was: no escape gets lost, no attribute text turns into a mustache that is written in another way, and
no mustache in content is the mark of something else. -/

namespace LayoutMarkup

open Cursor (valueOfParts)

/-- Whether a value is written as before when it has been read back. -/
def AttributeValue.isReprintable : AttributeValue → Bool
  | .text literal => holdsNames literal.chars.toList
  | .mustache call => call.meets .unescaped
  | .concat parts _ => partsMeet .unescaped parts

def Leaf.isReprintable : Leaf → Bool
  | .text _ => true
  | .mustache call => !startsMark call.path.name.toList && call.meets .unescaped
  | .comment _ => true

def Head.isReprintable : Head → Bool
  | .program _ => true
  | .element el => el.attributes.all fun attr => attr.value.isReprintable
  | .block inner => inner.call.meets .unescaped

/-- Whether every mustache in an attribute text is only a name, no string needs another escape than a
backslash, and no mustache in content is the mark of something else. -/
def Template.isReprintable (template : Template) : Bool :=
  template.nodes.all (Node.each Leaf.isReprintable Head.isReprintable)

/-! ### Values -/

theorem shrinks_writeMustache {call : Call} (met : call.meets .asRead = true) :
    Shrinks call.reread.writeMustache call.writeMustache (call.meets .unescaped = true) :=
  ((((call.shrinks_reread met).append (Shrinks.same ['}', '}'])).cons '{').cons '{').imp And.left

theorem writeMustache_reread {call : Call} (met : call.meets .asRead = true)
    (plain : call.meets .unescaped = true) : call.reread.writeMustache = call.writeMustache := by
  rw [Call.writeMustache, call.write_reread met plain, Call.writeMustache]

theorem escapeQuotes_escapeQuotes (text : List Char) :
    escapeQuotes (escapeQuotes text) = escapeQuotes text :=
  escapeQuotes_of_not_mem (not_mem_escapeQuotes text)

theorem shrinks_rereadParts {parts : List Part} (read : PartsAreRead parts) :
    Shrinks ((rereadParts parts).flatMap Part.write) (parts.flatMap Part.write)
      (partsMeet .unescaped parts = true) := by
  induction parts with
  | nil => exact (Shrinks.same []).imp fun _ => rfl
  | cons part rest ih =>
    have others := ih read.tail
    cases part with
    | text literal =>
      simp only [rereadParts, List.flatMap_cons, Part.write, Text.made, String.toList_ofList,
        escapeQuotes_escapeQuotes]
      exact ((Shrinks.same _).append others).imp And.right
    | mustache call =>
      apply ((shrinks_writeMustache read.mustache).append others).imp
      intro both
      simp only [partsMeet, both.1, both.2]
      rfl

theorem flatMap_write_rereadParts {parts : List Part} (read : PartsAreRead parts)
    (plain : partsMeet .unescaped parts = true) :
    (rereadParts parts).flatMap Part.write = parts.flatMap Part.write := by
  induction parts with
  | nil => rfl
  | cons part rest ih =>
    cases part with
    | text literal =>
      simp only [rereadParts, List.flatMap_cons, Part.write, Text.made, String.toList_ofList,
        escapeQuotes_escapeQuotes, ih read.tail plain]
    | mustache call =>
      simp only [partsMeet, Bool.and_eq_true] at plain
      simp only [rereadParts, List.flatMap_cons, Part.write,
        writeMustache_reread read.mustache plain.1, ih read.tail plain.2]

theorem write_valueOfParts (parts : List Part) (span : Span) :
    (valueOfParts parts span).write = '"' :: (parts.flatMap Part.write ++ ['"']) := by
  match parts with
  | [] => rfl
  | [.text literal] => simp [valueOfParts, AttributeValue.write, Part.write]
  | [.mustache call] => rfl
  | .text literal :: second :: rest => rfl
  | .mustache call :: second :: rest => rfl

namespace AttributeValue

theorem isAbsent_iff {value : AttributeValue} :
    value.isAbsent = true ↔ ∃ span, value = .text ⟨"", span⟩ := by
  cases value with
  | text literal =>
    obtain ⟨chars, span⟩ := literal
    simp [isAbsent, chars?]
  | mustache call => simp [isAbsent, chars?]
  | concat parts span => simp [isAbsent, chars?]

theorem opensNames_of_isReprintable {value : AttributeValue} (same : value.isReprintable = true) :
    value.opensNames = true := by
  cases value with
  | text literal => exact same
  | mustache call => rfl
  | concat parts span => rfl

theorem write_reread {value : AttributeValue} (read : value.IsRead)
    (same : value.isReprintable = true) : value.reread.write = value.write := by
  cases value with
  | text literal =>
    have names : holdsNames (escapeQuotes literal.chars.toList) = true := by
      rw [holdsNames_escapeQuotes]
      exact same
    rw [reread, write_valueOfParts, flatMap_write_nameParts (not_mem_escapeQuotes _) names, write]
  | mustache call => exact writeMustache_reread read same
  | concat parts span => rw [reread, write, flatMap_write_rereadParts read.1 same, write]

/-- The other way round, a value that is written as before is reprintable. -/
theorem isReprintable_of_write_reread {value : AttributeValue} (read : value.IsRead)
    (names : value.opensNames = true) (same : value.reread.write = value.write) :
    value.isReprintable = true := by
  cases value with
  | text literal => exact names
  | mustache call => exact (shrinks_writeMustache read).eq (congrArg List.length same)
  | concat parts span =>
    have shrinks := ((shrinks_rereadParts read.1).append (Shrinks.same ['"'])).cons '"'
    exact (shrinks.eq (congrArg List.length same)).1

theorem isAbsent_reread {value : AttributeValue} (same : value.reread.write = value.write) :
    value.reread.isAbsent = value.isAbsent := by
  rw [Bool.eq_iff_iff]
  constructor
  · intro absent
    obtain ⟨span, text⟩ := isAbsent_iff.mp absent
    rw [text] at same
    cases value with
    | text literal =>
      have nothing : escapeQuotes literal.chars.toList = [] := by
        simpa [write, escapeQuotes] using same.symm
      have empty : literal.chars = "" := by
        rw [← String.toList_inj, escapeQuotes_eq_nil.mp nothing]
        rfl
      exact isAbsent_iff.mpr ⟨literal.span, by rw [← empty]⟩
    | mustache call => cases text
    | concat parts span => cases text
  · intro absent
    rw [Cursor.reread_of_isAbsent absent]
    rfl

end AttributeValue

/-! ### Tags and trees -/

namespace Attribute

theorem write_reread {attr : Attribute} (read : attr.IsRead)
    (same : attr.value.isReprintable = true) : attr.reread.write = attr.write := by
  have value := AttributeValue.write_reread read.value same
  simp only [write, reread, value, AttributeValue.isAbsent_reread value]

theorem isReprintable_of_write_reread {attr : Attribute} (read : attr.IsRead)
    (names : attr.value.opensNames = true) (same : attr.reread.write = attr.write) :
    attr.value.isReprintable = true := by
  by_cases absent : attr.value.isAbsent = true
  · obtain ⟨span, text⟩ := AttributeValue.isAbsent_iff.mp absent
    rw [text]
    rfl
  · apply AttributeValue.isReprintable_of_write_reread read.value names
    rw [Bool.not_eq_true] at absent
    by_cases absent' : attr.value.reread.isAbsent = true
    · simp [write, reread, absent, absent'] at same
    · simpa [write, reread, absent, absent'] using same

end Attribute

theorem Element.writeStart_reread {element : Element}
    (read : TagIsRead element.tag element.attributes)
    (same : element.attributes.all (fun attr => attr.value.isReprintable) = true) :
    element.reread.writeStart = element.writeStart := by
  have attributes : element.reread.attributes.flatMap Attribute.write =
      element.attributes.flatMap Attribute.write := by
    rw [reread, List.flatMap_map]
    apply List.flatMap_congr
    intro attr member
    exact Attribute.write_reread (read.attributes attr member) (List.all_eq_true.mp same attr member)
  rw [writeStart, attributes, writeStart]
  rfl

theorem Block.call_reread (block : Block) : block.reread.call = block.call.reread := rfl

theorem Block.writeStart_eq (block : Block) :
    block.writeStart = ['{', '{', '#'] ++ block.call.write ++ ['}', '}'] := by
  simp [writeStart, call, Call.write]

theorem Block.writeStart_reread {block : Block} (met : block.call.meets .asRead = true)
    (same : block.call.meets .unescaped = true) : block.reread.writeStart = block.writeStart := by
  rw [writeStart_eq, call_reread, block.call.write_reread met same, ← writeStart_eq]

theorem Leaf.write_reread {content : Leaf} {next : Front} (read : content.IsRead next)
    (same : content.isReprintable = true) : content.reread.write = content.write := by
  cases content with
  | text literal => rfl
  | mustache call =>
    simp only [isReprintable, Bool.and_eq_true] at same
    exact writeMustache_reread read same.2
  | comment remark => rfl

theorem Head.write_reread {head : Head} (read : head.IsRead) (same : head.isReprintable = true) :
    head.reread.write = head.write := by
  funext childless content
  cases head with
  | program span => rfl
  | element el =>
    simp only [reread, write, Element.writeStart_reread read same]
    rfl
  | block inner =>
    simp only [reread, write, Block.writeStart_reread read same]
    rfl

theorem Leaf.keepsKind_of_isReprintable {content : Leaf} (same : content.isReprintable = true) :
    content.keepsKind = true := by
  cases content with
  | text literal => rfl
  | mustache call =>
    simp only [isReprintable, Bool.and_eq_true] at same
    exact same.1
  | comment remark => rfl

theorem Head.keepsKind_of_isReprintable {head : Head} (same : head.isReprintable = true) :
    head.keepsKind = true := by
  cases head with
  | program span => rfl
  | element el =>
    rw [keepsKind, List.all_eq_true]
    intro attr member
    exact AttributeValue.opensNames_of_isReprintable (List.all_eq_true.mp same attr member)
  | block inner => rfl

namespace Tree

theorem isEmpty_rereadAll (trees : List Tree) : (rereadAll trees).isEmpty = trees.isEmpty := by
  cases trees <;> rfl

mutual

theorem write_reread : ∀ (tree : Tree) (next : Front), tree.IsRead next →
    tree.each Leaf.isReprintable Head.isReprintable = true → tree.reread.write = tree.write
  | .leaf _, _, read, same => Leaf.write_reread read same
  | .branch head trees, _, ⟨read, _, below⟩, same => by
    simp only [each, Bool.and_eq_true] at same
    simp only [reread, write, Head.write_reread read same.1, isEmpty_rereadAll,
      writeAll_reread trees head.front below same.2]

/-- What reprintable trees are read back as is written as they were. -/
theorem writeAll_reread : ∀ (trees : List Tree) (next : Front), AllRead trees next →
    eachAll Leaf.isReprintable Head.isReprintable trees = true →
      writeAll (rereadAll trees) = writeAll trees
  | [], _, _, _ => rfl
  | tree :: trees, next, ⟨first, others⟩, same => by
    simp only [eachAll, Bool.and_eq_true] at same
    simp only [rereadAll, writeAll, write_reread tree _ first same.1,
      writeAll_reread trees next others same.2]

end

end Tree

end LayoutMarkup
