import LayoutMarkup.Proofs.Call.Plain
import LayoutMarkup.Proofs.Template.Reread

/-! Templates that come back unchanged: printing a plain template and reading what was printed gives
every node back under its id, spans apart. -/

namespace LayoutMarkup

/-- Whether a part of a value is written without an escape that is not undone. -/
def Part.isPlain : Part → Bool
  | .text literal => !literal.chars.toList.contains '"'
  | .mustache call => call.meets .plain

def AttributeValue.isPlain : AttributeValue → Bool
  | .text literal =>
    !literal.chars.toList.contains '"' && !holdsMustache literal.chars.toList
  | .mustache call => call.meets .plain
  | .concat parts _ => parts.all Part.isPlain

def Leaf.isPlain : Leaf → Bool
  | .text _ => true
  | .mustache call => !startsMark call.path.name.toList && call.meets .plain
  | .comment _ => true

def Head.isPlain : Head → Bool
  | .program _ => true
  | .element el => el.attributes.all fun attr => attr.value.isPlain
  | .block inner => inner.call.meets .plain

/-- Whether no attribute text holds a double quote and none by itself opens a mustache, no string
needs another escape than a backslash, there is no number, and no mustache in content is the mark of
something else. -/
def Template.isPlain (template : Template) : Bool :=
  template.nodes.all (Node.each Leaf.isPlain Head.isPlain)

theorem rereadParts_of_isPlain {parts : List Part} (read : PartsAreRead parts)
    (plain : parts.all Part.isPlain = true) : rereadParts parts = partsWithoutSpans parts := by
  induction parts with
  | nil => rfl
  | cons part rest ih =>
    rw [List.all_cons, Bool.and_eq_true] at plain
    obtain ⟨first, later⟩ := plain
    have others := ih read.tail later
    cases part with
    | text literal =>
      simp only [Part.isPlain, Bool.not_eq_true', List.contains_eq_mem,
        decide_eq_false_iff_not] at first
      simp only [rereadParts, partsWithoutSpans, escapeQuotes_of_not_mem first,
        String.ofList_toList, others]
    | mustache call =>
      simp only [rereadParts, partsWithoutSpans, call.reread_of_plain read.mustache first, others]

namespace AttributeValue

theorem reread_of_isPlain {value : AttributeValue} (read : value.IsRead)
    (plain : value.isPlain = true) : value.reread = value.withoutSpans := by
  cases value with
  | text literal =>
    simp only [isPlain, Bool.and_eq_true, Bool.not_eq_true', List.contains_eq_mem,
      decide_eq_false_iff_not] at plain
    rw [reread, escapeQuotes_of_not_mem plain.1, nameParts_of_plain plain.1 plain.2, withoutSpans]
    unfold Part.ofStretch
    split
    · rename_i nothing
      have empty : literal.chars = "" := by
        rw [← String.toList_inj, List.isEmpty_iff.mp nothing]
        rfl
      rw [empty]
      rfl
    · rw [String.ofList_toList]
      rfl
  | mustache call => rw [reread, call.reread_of_plain read plain, withoutSpans]
  | concat parts span => rw [reread, rereadParts_of_isPlain read.1 plain, withoutSpans]

theorem opensNames_of_isPlain {value : AttributeValue} (plain : value.isPlain = true) :
    value.opensNames = true := by
  cases value with
  | text literal =>
    simp only [isPlain, Bool.and_eq_true, Bool.not_eq_true'] at plain
    exact holdsNames_of_plain plain.2
  | mustache call => rfl
  | concat parts span => rfl

end AttributeValue

theorem Element.reread_of_isPlain {element : Element}
    (read : TagIsRead element.tag element.attributes)
    (plain : element.attributes.all (fun attr => attr.value.isPlain) = true) :
    element.reread = element.withoutSpans := by
  have attributes : element.attributes.map Attribute.reread =
      element.attributes.map Attribute.withoutSpans := by
    apply List.map_congr_left
    intro attr member
    have own := AttributeValue.reread_of_isPlain (read.attributes attr member).value
      (List.all_eq_true.mp plain attr member)
    rw [Attribute.reread, own, Attribute.withoutSpans]
  rw [reread, attributes, withoutSpans]

theorem Block.reread_of_isPlain {block : Block} (read : block.call.meets .asRead = true)
    (plain : block.call.meets .plain = true) : block.reread = block.withoutSpans := by
  have same := block.call.reread_of_plain read plain
  simp only [call, Call.reread, Call.withoutSpans, Call.mk.injEq] at same
  simp only [reread, withoutSpans, same]

theorem Leaf.reread_of_isPlain {content : Leaf} {next : Front} (read : content.IsRead next)
    (plain : content.isPlain = true) : content.reread = content.withoutSpans := by
  cases content with
  | text literal => rfl
  | mustache call =>
    simp only [isPlain, Bool.and_eq_true] at plain
    rw [reread, call.reread_of_plain read plain.2, withoutSpans]
  | comment remark => rfl

theorem Head.reread_of_isPlain {head : Head} (read : head.IsRead) (plain : head.isPlain = true) :
    head.reread = head.withoutSpans := by
  cases head with
  | program span => rfl
  | element el => rw [reread, el.reread_of_isPlain read plain, withoutSpans]
  | block inner => rw [reread, inner.reread_of_isPlain read plain, withoutSpans]

theorem Leaf.keepsKind_of_isPlain {content : Leaf} (plain : content.isPlain = true) :
    content.keepsKind = true := by
  cases content with
  | text literal => rfl
  | mustache call =>
    simp only [isPlain, Bool.and_eq_true] at plain
    exact plain.1
  | comment remark => rfl

theorem Head.keepsKind_of_isPlain {head : Head} (plain : head.isPlain = true) :
    head.keepsKind = true := by
  cases head with
  | program span => rfl
  | element el =>
    rw [keepsKind, List.all_eq_true]
    intro attr member
    exact AttributeValue.opensNames_of_isPlain (List.all_eq_true.mp plain attr member)
  | block inner => rfl

namespace Tree

mutual

theorem reread_of_isPlain : ∀ (tree : Tree) (next : Front), tree.IsRead next →
    tree.each Leaf.isPlain Head.isPlain = true → tree.reread = tree.withoutSpans
  | .leaf _, _, read, plain => by
    rw [reread, Leaf.reread_of_isPlain read plain, withoutSpans]
  | .branch head trees, _, ⟨read, _, below⟩, plain => by
    simp only [each, Bool.and_eq_true] at plain
    rw [reread, Head.reread_of_isPlain read plain.1,
      rereadAll_of_isPlain trees head.front below plain.2, withoutSpans]

theorem rereadAll_of_isPlain : ∀ (trees : List Tree) (next : Front), AllRead trees next →
    eachAll Leaf.isPlain Head.isPlain trees = true → rereadAll trees = withoutSpansAll trees
  | [], _, _, _ => rfl
  | tree :: trees, next, ⟨first, others⟩, plain => by
    simp only [eachAll, Bool.and_eq_true] at plain
    rw [rereadAll, reread_of_isPlain tree _ first plain.1,
      rereadAll_of_isPlain trees next others plain.2, withoutSpansAll]

end

end Tree

namespace Template

/-- A plain template that was read is printed, and reading what was printed gives it again. -/
theorem read_print_of_isPlain {source : String} {template : Template}
    (found : read source = .ok template) (plain : template.isPlain = true) :
    ∃ text again, template.print = some text ∧ read text = .ok again ∧
      again.withoutSpans = template.withoutSpans := by
  obtain ⟨trees, cursor, finished, rfl⟩ := exists_trees_of_read found
  have legal := Tree.allRead_of_read finished
  rw [isPlain, all_each_ofTrees, Bool.and_eq_true] at plain
  have keeps := Tree.eachAll_mono (fun _ => Leaf.keepsKind_of_isPlain)
    (fun _ => Head.keepsKind_of_isPlain) trees plain.2
  obtain ⟨again, last, reread, same⟩ := Tree.read_writeAll legal keeps
  rw [Tree.rereadAll_of_isPlain trees .stop legal plain.2] at same
  refine ⟨_, ofTrees again ⟨.start, last.position⟩, print_ofTrees _ _, ?_, ?_⟩
  · rw [read, reread]
  · rw [withoutSpans_ofTrees, withoutSpans_ofTrees, same]

/-- A short comment and an unquoted value are printed in another form, and the template stays. -/
theorem read_print_of_short_comment :
    ∃ template text again,
      read "<p a=b c='{{d}}'>{{~e (f g=h)}} <{{! i }}</p>{{#j}}<br>{{/j}}" = .ok template ∧
      template.isPlain = true ∧ template.print = some text ∧ read text = .ok again ∧
      again.withoutSpans = template.withoutSpans := by
  have facts : (match read "<p a=b c='{{d}}'>{{~e (f g=h)}} <{{! i }}</p>{{#j}}<br>{{/j}}" with
      | .ok template => template.isPlain
      | .error _ => false) = true := by decide +kernel
  split at facts
  · rename_i template found
    obtain ⟨text, again, printed, reread, same⟩ := read_print_of_isPlain found facts
    exact ⟨template, text, again, found, facts, printed, reread, same⟩
  · cases facts

end Template

end LayoutMarkup
