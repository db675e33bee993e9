import LayoutMarkup.Proofs.Call.Spans
import LayoutMarkup.Proofs.Template.OtherNodes

/-! Templates without their spans. Storing and writing trees take no notice of spans, so that two
templates made of trees that differ in spans alone have the same nodes and the same text. -/

namespace LayoutMarkup

namespace AttributeValue

def withoutSpans : AttributeValue → AttributeValue
  | .text literal => .text (.made literal.chars)
  | .mustache call => .mustache call.withoutSpans
  | .concat parts _ => .concat (partsWithoutSpans parts) .nowhere

end AttributeValue

def Attribute.withoutSpans (attr : Attribute) : Attribute :=
  ⟨attr.name, attr.value.withoutSpans, .nowhere⟩

def Element.withoutSpans (element : Element) : Element :=
  ⟨element.tag, element.attributes.map Attribute.withoutSpans, element.selfClosing, .nowhere⟩

def Block.withoutSpans (block : Block) : Block where
  path := block.path.withoutSpan
  params := paramsWithoutSpans block.params
  hash := hashWithoutSpans block.hash
  bodySpan := .nowhere
  span := .nowhere

def Comment.withoutSpan (comment : Comment) : Comment := ⟨comment.value, comment.html, .nowhere⟩

def Leaf.withoutSpans : Leaf → Leaf
  | .text literal => .text (.made literal.chars)
  | .mustache call => .mustache call.withoutSpans
  | .comment remark => .comment remark.withoutSpan

def Head.withoutSpans : Head → Head
  | .program _ => .program .nowhere
  | .element el => .element el.withoutSpans
  | .block inner => .block inner.withoutSpans

def Node.withoutSpans : Node → Node
  | .leaf content => .leaf content.withoutSpans
  | .branch head children => .branch head.withoutSpans children

/-- A template as though it had been made and not read; every node keeps its id. -/
def Template.withoutSpans (template : Template) : Template :=
  ⟨template.nodes.map Node.withoutSpans, by simpa using template.root_lt⟩

namespace Tree

mutual

def withoutSpans : Tree → Tree
  | .leaf content => .leaf content.withoutSpans
  | .branch head trees => .branch head.withoutSpans (withoutSpansAll trees)

def withoutSpansAll : List Tree → List Tree
  | [] => []
  | tree :: trees => tree.withoutSpans :: withoutSpansAll trees

end

mutual

theorem withoutSpans_eq_mapContents : ∀ tree : Tree,
    tree.withoutSpans = tree.mapContents Leaf.withoutSpans Head.withoutSpans
  | .leaf _ => rfl
  | .branch _ trees => by rw [withoutSpans, mapContents, withoutSpansAll_eq_mapContentsAll trees]

theorem withoutSpansAll_eq_mapContentsAll : ∀ trees : List Tree,
    withoutSpansAll trees = mapContentsAll Leaf.withoutSpans Head.withoutSpans trees
  | [] => rfl
  | tree :: trees => by
    rw [withoutSpansAll, mapContentsAll, withoutSpans_eq_mapContents tree,
      withoutSpansAll_eq_mapContentsAll trees]

end

end Tree

theorem Node.withoutSpans_eq_mapContents :
    Node.withoutSpans = Node.mapContents Leaf.withoutSpans Head.withoutSpans := by
  funext node
  cases node <;> rfl

/-- The spans of a stored tree are those of the tree. -/
theorem Template.withoutSpans_ofTrees (trees : List Tree) (span : Span) :
    (ofTrees trees span).withoutSpans = ofTrees (Tree.withoutSpansAll trees) .nowhere := by
  have program : (Head.program span).withoutSpans = .program .nowhere := rfl
  have nodes := @nodes_ofTrees_mapContents Leaf.withoutSpans _ _ _ trees program
  rw [← Tree.withoutSpansAll_eq_mapContentsAll, ← Node.withoutSpans_eq_mapContents] at nodes
  simp only [withoutSpans, ← nodes]

theorem Part.flatMap_write_withoutSpans (parts : List Part) :
    (partsWithoutSpans parts).flatMap Part.write = parts.flatMap Part.write := by
  induction parts with
  | nil => rfl
  | cons part rest ih =>
    cases part with
    | text text => simp [partsWithoutSpans, Part.write, Text.made, ih]
    | mustache call =>
      simp [partsWithoutSpans, Part.write, Call.writeMustache, call.write_withoutSpans, ih]

theorem Call.writeMustache_withoutSpans (call : Call) :
    call.withoutSpans.writeMustache = call.writeMustache := by
  rw [writeMustache, call.write_withoutSpans, writeMustache]

theorem Attribute.write_withoutSpans (attr : Attribute) :
    attr.withoutSpans.write = attr.write := by
  obtain ⟨name, value, span⟩ := attr
  cases value with
  | text literal => rfl
  | mustache call =>
    simp [write, withoutSpans, AttributeValue.withoutSpans, AttributeValue.write,
      AttributeValue.isAbsent, AttributeValue.chars?, call.writeMustache_withoutSpans]
  | concat parts span =>
    simp [write, withoutSpans, AttributeValue.withoutSpans, AttributeValue.write,
      AttributeValue.isAbsent, AttributeValue.chars?, Part.flatMap_write_withoutSpans]

theorem Element.writeStart_withoutSpans (element : Element) :
    element.withoutSpans.writeStart = element.writeStart := by
  simp only [writeStart, withoutSpans, List.flatMap_map, Attribute.write_withoutSpans]
  rfl

theorem Leaf.write_withoutSpans (content : Leaf) : content.withoutSpans.write = content.write := by
  cases content with
  | text literal => rfl
  | mustache call => exact call.writeMustache_withoutSpans
  | comment remark => rfl

theorem Head.write_withoutSpans (head : Head) : head.withoutSpans.write = head.write := by
  funext childless content
  cases head with
  | program span => rfl
  | element el =>
    simp only [withoutSpans, write, el.writeStart_withoutSpans]
    rfl
  | block inner =>
    simp [withoutSpans, write, Block.writeStart, Block.writeEnd, Block.withoutSpans,
      Path.withoutSpan, Path.made, writeParams_withoutSpans, writeHash_withoutSpans]

namespace Tree

theorem isEmpty_withoutSpansAll (trees : List Tree) :
    (withoutSpansAll trees).isEmpty = trees.isEmpty := by
  cases trees <;> rfl

mutual

theorem write_withoutSpans : ∀ tree : Tree, tree.withoutSpans.write = tree.write
  | .leaf content => content.write_withoutSpans
  | .branch head trees => by
    simp only [withoutSpans, write, head.write_withoutSpans, isEmpty_withoutSpansAll,
      writeAll_withoutSpans trees]

/-- Trees are written without a look at their spans. -/
theorem writeAll_withoutSpans :
    ∀ trees : List Tree, writeAll (withoutSpansAll trees) = writeAll trees
  | [] => rfl
  | tree :: trees => by
    simp only [withoutSpansAll, writeAll, write_withoutSpans tree, writeAll_withoutSpans trees]

end

end Tree

end LayoutMarkup
