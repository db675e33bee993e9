import LayoutMarkup.Proofs.Call.Placement
import LayoutMarkup.Proofs.Template.Covering

/-! Where the parts of a template stand. The attributes of an element that was read follow each other
within its span, each around its value; the call of a block stands before its body. Every span of a
template that was read starts no later than it ends, and no earlier than the source. -/

namespace LayoutMarkup

namespace AttributeValue

def IsPlaced : AttributeValue → Prop
  | .text _ => True
  | .mustache call => call.IsPlaced
  | .concat parts span => InOrder span.start (parts.map Part.span) span.stop ∧ PartsArePlaced parts

def spans : AttributeValue → List Span
  | .text literal => [literal.span]
  | .mustache call => call.spans
  | .concat parts span => span :: partsSpans parts

theorem spansAreOrdered : ∀ value : AttributeValue, value.IsPlaced → value.span.IsOrdered →
    SpansAreOrdered value.spans
  | .text _, _, own => spansAreOrdered_cons.mpr ⟨own, spansAreOrdered_nil⟩
  | .mustache call, placed, _ => call.spansAreOrdered placed
  | .concat parts _, ⟨ordered, placed⟩, own =>
    spansAreOrdered_cons.mpr ⟨own, partsSpans_areOrdered parts placed ordered.spansAreOrdered⟩

end AttributeValue

namespace Attribute

/-- The value of an attribute stands within it. -/
def IsPlaced (attr : Attribute) : Prop :=
  InOrder attr.span.start [attr.value.span] attr.span.stop ∧ attr.value.IsPlaced

def spans (attr : Attribute) : List Span := attr.span :: attr.value.spans

theorem spansAreOrdered {attr : Attribute} (placed : attr.IsPlaced) : SpansAreOrdered attr.spans :=
  let ⟨ordered, inside⟩ := placed
  let ⟨own, _⟩ := spansAreOrdered_cons.mp ordered.spansAreOrdered
  spansAreOrdered_cons.mpr ⟨ordered.upTo, attr.value.spansAreOrdered inside own⟩

end Attribute

/-- The attributes of an element stand in it, one after the other. -/
structure Element.IsPlaced (element : Element) : Prop where
  ordered : InOrder element.span.start (element.attributes.map Attribute.span) element.span.stop
  attributes : ∀ attr ∈ element.attributes, attr.IsPlaced

def Element.spans (element : Element) : List Span :=
  element.span :: element.attributes.flatMap Attribute.spans

/-- The call of a block stands before the body of the block. -/
structure Block.IsPlaced (block : Block) : Prop where
  ordered : InOrder block.span.start
    (block.path.span :: (block.params.map Expression.span ++ (hashPairs block.hash).map Pair.span))
    block.bodySpan.start
  body : block.bodySpan.IsOrdered
  ends : block.bodySpan.stop.UpTo block.span.stop
  params : ParamsArePlaced block.params
  hash : HashIsPlaced block.hash

def Block.spans (block : Block) : List Span :=
  block.span :: block.bodySpan :: block.path.span :: (paramsSpans block.params ++ hashSpans block.hash)

/-- In a block whose parts stand in it in order, every span is ordered. -/
theorem Block.spansAreOrdered {block : Block} (placed : block.IsPlaced) :
    SpansAreOrdered block.spans := by
  have whole : Call.IsPlaced ⟨block.path, block.params, block.hash, block.span.start,
      block.bodySpan.start⟩ := ⟨placed.ordered, placed.params, placed.hash⟩
  obtain ⟨-, call⟩ := spansAreOrdered_cons.mp (Call.spansAreOrdered _ whole)
  have own : block.span.IsOrdered := placed.ordered.upTo.trans (placed.body.trans placed.ends)
  exact spansAreOrdered_cons.mpr ⟨own, spansAreOrdered_cons.mpr ⟨placed.body, call⟩⟩

def Leaf.IsPlaced : Leaf → Prop
  | .text literal => literal.span.IsOrdered
  | .mustache call => call.IsPlaced
  | .comment remark => remark.span.IsOrdered

def Leaf.spans : Leaf → List Span
  | .text literal => [literal.span]
  | .mustache call => call.spans
  | .comment remark => [remark.span]

def Head.IsPlaced : Head → Prop
  | .program span => span.IsOrdered
  | .element el => el.IsPlaced
  | .block inner => inner.IsPlaced

def Head.spans : Head → List Span
  | .program span => [span]
  | .element el => el.spans
  | .block inner => inner.spans

namespace Node

/-- What holds of the spans of a node that was read. -/
def IsPlaced (node : Node) : Prop :=
  Position.start.UpTo node.span.start ∧
    match node with
    | .leaf content => content.IsPlaced
    | .branch head _ => head.IsPlaced

def spans : Node → List Span
  | .leaf content => content.spans
  | .branch head _ => head.spans

theorem spansAreOrdered : ∀ {node : Node}, node.IsPlaced → SpansAreOrdered node.spans
  | .leaf (.text _), ⟨_, own⟩ => spansAreOrdered_cons.mpr ⟨own, spansAreOrdered_nil⟩
  | .leaf (.mustache call), ⟨_, placed⟩ => call.spansAreOrdered placed
  | .leaf (.comment _), ⟨_, own⟩ => spansAreOrdered_cons.mpr ⟨own, spansAreOrdered_nil⟩
  | .branch (.program _) _, ⟨_, own⟩ => spansAreOrdered_cons.mpr ⟨own, spansAreOrdered_nil⟩
  | .branch (.block _) _, ⟨_, placed⟩ => Block.spansAreOrdered placed
  | .branch (.element el) _, ⟨_, placed⟩ =>
    spansAreOrdered_cons.mpr ⟨placed.ordered.upTo, by
      intro span member
      obtain ⟨attr, listed, inside⟩ := List.mem_flatMap.mp member
      exact Attribute.spansAreOrdered (placed.attributes attr listed) span inside⟩

end Node

/-- Every span in a template. -/
def Template.spans (template : Template) : List Span := template.nodes.toList.flatMap Node.spans

theorem Template.mem_spans_iff {template : Template} {span : Span} :
    span ∈ template.spans ↔ ∃ id node, template.get? id = some node ∧ span ∈ node.spans := by
  rw [spans, List.mem_flatMap]
  constructor
  · rintro ⟨node, member, inside⟩
    obtain ⟨id, found⟩ := List.mem_iff_getElem?.mp member
    exact ⟨id, node, by rw [get?, ← Array.getElem?_toList, found], inside⟩
  · rintro ⟨id, node, found, inside⟩
    rw [get?, ← Array.getElem?_toList] at found
    exact ⟨node, List.mem_iff_getElem?.mpr ⟨id, found⟩, inside⟩

namespace Cursor

variable {cursor after last : Cursor}

theorem partsArePlaced_ofStretch (stretch : List Char) (span : Span) :
    PartsArePlaced (Part.ofStretch stretch span) := by
  unfold Part.ofStretch
  split <;> trivial

theorem partsArePlaced_of_readParts {quote : Char} {parts : List Part}
    (found : cursor.readParts quote = .ok (parts, last)) : PartsArePlaced parts := by
  fun_induction readParts cursor quote generalizing parts last with
  | case1 => cases found
  | case2 =>
    cases found
    exact partsArePlaced_ofStretch _ _
  | case3 => cases found
  | case4 => cases found
  | case5 =>
    rename_i step _ _ ran ih
    cases found
    exact partsArePlaced_append.mpr
      ⟨partsArePlaced_ofStretch _ _, isPlaced_of_readMustache step, ih ran⟩

theorem isPlaced_of_readValue {value : AttributeValue}
    (found : cursor.readValue = .ok (value, after)) : value.IsPlaced := by
  obtain ⟨text, -, covered⟩ := covers_of_readValue found
  simp only [readValue] at found
  repeat' split at found
  · cases found
  · rename_i parts last ran
    cases found
    have placed := partsArePlaced_of_readParts ran
    match parts with
    | [] => trivial
    | [.text _] => trivial
    | [.mustache _] => exact ⟨covered.inOrder, placed⟩
    | .mustache _ :: _ :: _ => exact ⟨covered.inOrder, placed⟩
    | .text _ :: _ :: _ => exact ⟨covered.inOrder, placed⟩
  · cases found
  · rename_i step
    cases found
    exact isPlaced_of_readMustache step
  · cases found
    trivial

theorem isPlaced_of_readAttribute {attr : Attribute}
    (found : cursor.readAttribute = .ok (attr, after)) : attr.IsPlaced := by
  obtain ⟨text, -, covered⟩ := covers_of_readAttribute found
  refine ⟨covered.inOrder, ?_⟩
  simp only [readAttribute] at found
  repeat' split at found
  · cases found
  · cases found
    trivial
  · cases found
  · rename_i value
    cases found
    exact isPlaced_of_readValue value

theorem arePlaced_of_readAttributes {tag : String} {attrs : List Attribute} {selfClosing : Bool}
    (found : cursor.readAttributes tag = .ok (attrs, selfClosing, last)) :
    ∀ attr ∈ attrs, attr.IsPlaced := by
  fun_induction readAttributes cursor tag generalizing attrs selfClosing last with
  | case1 =>
    cases found
    simp
  | case2 =>
    cases found
    simp
  | case3 => cases found
  | case4 => cases found
  | case5 => cases found
  | case6 =>
    rename_i step rest _ _ ran ih
    cases found
    exact List.forall_mem_cons.mpr ⟨isPlaced_of_readAttribute step, ih ran⟩

/-- Attributes stand one after the other in what is read. -/
theorem isPlaced_of_readAttributes {tag : String} {attrs : List Attribute} {selfClosing : Bool}
    (found : cursor.readAttributes tag = .ok (attrs, selfClosing, last)) :
    InOrder cursor.position (attrs.map Attribute.span) last.position ∧
      ∀ attr ∈ attrs, attr.IsPlaced := by
  obtain ⟨text, passed, covered⟩ := covers_of_readAttributes found
  obtain ⟨stop, ordered, ends⟩ := covered.inOrder
  rw [← passed.position] at ends
  exact ⟨ordered.of_later ends.upTo, arePlaced_of_readAttributes found⟩

end Cursor

namespace Tree

/-- What holds of the top of a tree that was read. -/
def IsPlaced : Tree → Prop
  | .leaf content => (Node.leaf content).IsPlaced
  | .branch head _ => (Node.branch head []).IsPlaced

/-- What holds of the tops of some trees and of all trees in them. -/
def AllPlaced (trees : List Tree) : Prop := ∀ tree ∈ trees, ∀ below ∈ tree.subtrees, below.IsPlaced

theorem allPlaced_cons {tree : Tree} {trees : List Tree} :
    AllPlaced (tree :: trees) ↔ (∀ below ∈ tree.subtrees, below.IsPlaced) ∧ AllPlaced trees :=
  List.forall_mem_cons

theorem mem_subtreesAll {trees : List Tree} {below : Tree} :
    below ∈ subtreesAll trees ↔ ∃ tree ∈ trees, below ∈ tree.subtrees := by
  induction trees with
  | nil => simp [subtreesAll]
  | cons tree trees ih => simp [subtreesAll, ih]

/-- A branch around trees is placed with them when its own head is. -/
theorem allPlaced_branch {head : Head} {trees : List Tree} (own : (Node.branch head []).IsPlaced)
    (inside : AllPlaced trees) : ∀ below ∈ (branch head trees).subtrees, below.IsPlaced := by
  intro below member
  rcases List.mem_cons.mp member with rfl | deeper
  · exact own
  · obtain ⟨tree, listed, within⟩ := mem_subtreesAll.mp deeper
    exact inside tree listed below within

theorem allPlaced_reverse {trees : List Tree} (placed : AllPlaced trees) : AllPlaced trees.reverse :=
  fun tree member => placed tree (List.mem_reverse.mp member)

theorem allPlaced_leaf {content : Leaf} (own : (Node.leaf content).IsPlaced) :
    ∀ below ∈ (leaf content).subtrees, below.IsPlaced := by
  intro below member
  obtain rfl := List.mem_singleton.mp member
  exact own

end Tree

/-- What holds of an open branch when a place behind its opening has been reached. -/
def Opening.IsPlaced (place : Position) : Opening → Prop
  | .element _ attributes start =>
    Position.start.UpTo start ∧ InOrder start (attributes.map Attribute.span) place ∧
      ∀ attr ∈ attributes, attr.IsPlaced
  | .block call start bodyStart =>
    Position.start.UpTo start ∧ call.span = ⟨start, bodyStart⟩ ∧ call.IsPlaced ∧ bodyStart.UpTo place

theorem Opening.IsPlaced.of_later {place later : Position} {opening : Opening}
    (placed : opening.IsPlaced place) (after : place.UpTo later) : opening.IsPlaced later := by
  cases opening with
  | element tag attributes start =>
    obtain ⟨begun, ordered, own⟩ := placed
    exact ⟨begun, ordered.of_later after, own⟩
  | block call start bodyStart =>
    obtain ⟨begun, span, own, behind⟩ := placed
    exact ⟨begun, span, own, behind.trans after⟩

namespace Tree.Reading

/-- What holds of a reading that has reached a place. -/
structure IsPlaced (reading : Reading) (place : Position) : Prop where
  begun : Position.start.UpTo place
  siblings : AllPlaced reading.siblings
  openings : ∀ branch ∈ reading.branches, branch.opening.IsPlaced place
  before : ∀ branch ∈ reading.branches, AllPlaced branch.before

variable {reading reading' : Reading} {cursor after : Cursor} {place : Position}

theorem isPlaced_start : start.IsPlaced .start :=
  ⟨Position.upTo_refl _, by simp [start, AllPlaced], by simp [start], by simp [start]⟩

theorem isPlaced_push {tree : Tree} (read : reading.IsPlaced cursor.position)
    (reached : cursor.Reaches after) (new : ∀ below ∈ tree.subtrees, below.IsPlaced) :
    (reading.push tree).IsPlaced after.position where
  begun := read.begun.trans reached.upTo
  siblings := allPlaced_cons.mpr ⟨new, read.siblings⟩
  openings branch member := (read.openings branch member).of_later reached.upTo
  before := read.before

theorem isPlaced_enter {opening : Opening} (read : reading.IsPlaced cursor.position)
    (reached : cursor.Reaches after) (new : opening.IsPlaced after.position) :
    (reading.enter opening).IsPlaced after.position where
  begun := read.begun.trans reached.upTo
  siblings := by simp [enter, AllPlaced]
  openings := List.forall_mem_cons.mpr
    ⟨new, fun branch member => (read.openings branch member).of_later reached.upTo⟩
  before := List.forall_mem_cons.mpr ⟨read.siblings, read.before⟩

theorem isPlaced_close {opening : Opening} {before : List Tree} {outer : List OpenBranch} {head : Head}
    (read : reading.IsPlaced cursor.position) (reached : cursor.Reaches after)
    (inside : reading.branches = ⟨opening, before⟩ :: outer)
    (new : opening.IsPlaced after.position → (Node.branch head []).IsPlaced) :
    IsPlaced ⟨outer, .branch head reading.siblings.reverse :: before⟩ after.position := by
  obtain ⟨begun, siblings, openings, earlier⟩ := read
  rw [inside] at openings earlier
  obtain ⟨own, others⟩ := List.forall_mem_cons.mp openings
  obtain ⟨front, above⟩ := List.forall_mem_cons.mp earlier
  exact {
    begun := begun.trans reached.upTo
    siblings := allPlaced_cons.mpr
      ⟨allPlaced_branch (new (own.of_later reached.upTo)) (allPlaced_reverse siblings), front⟩
    openings := fun branch member => (others branch member).of_later reached.upTo
    before := above }

/-- One more piece of the source leaves a reading placed. -/
theorem isPlaced_of_moves (read : reading.IsPlaced cursor.position)
    (moves : Moves reading cursor reading' after) : reading'.IsPlaced after.position := by
  have reached := reaches_of_moves moves
  cases moves with
  | text plain => exact isPlaced_push read reached (allPlaced_leaf ⟨read.begun, reached.upTo⟩)
  | mustache markup first found =>
    obtain ⟨-, span⟩ := Cursor.span_of_readMustache found
    refine isPlaced_push read reached (allPlaced_leaf ⟨?_, Cursor.isPlaced_of_readMustache found⟩)
    simpa [Node.span, Leaf.span, span] using read.begun
  | comment markup first found =>
    exact isPlaced_push read reached (allPlaced_leaf ⟨read.begun, reached.upTo⟩)
  | lone markup first name found whole =>
    have front := reaches_behindTag cursor 1
    obtain ⟨ordered, placed⟩ := Cursor.isPlaced_of_readAttributes found
    refine isPlaced_push read reached ?_
    exact allPlaced_branch ⟨read.begun, ordered.of_earlier front.upTo, placed⟩ (by simp [AllPlaced])
  | enterElement markup first name found ordinary =>
    have front := reaches_behindTag cursor 1
    obtain ⟨ordered, placed⟩ := Cursor.isPlaced_of_readAttributes found
    exact isPlaced_enter read reached ⟨read.begun, ordered.of_earlier front.upTo, placed⟩
  | closeElement markup first inside name found =>
    exact isPlaced_close read reached inside fun opened => ⟨opened.1, opened.2.1, opened.2.2⟩
  | enterBlock markup first found =>
    rename_i opening call
    have front := cursor.reaches_skip opening
    obtain ⟨-, span⟩ := Cursor.span_of_readCall found
    exact isPlaced_enter read reached
      ⟨read.begun, span, Cursor.isPlaced_of_readCall front.upTo found, Position.upTo_refl _⟩
  | closeBlock markup first inside found name closed =>
    rename_i opening call start bodyStart before outer path behind
    -- the body ends where the closing begins, which is where the reading has come to
    have body : bodyStart.UpTo cursor.position := by
      have opened := read.openings ⟨.block call start bodyStart, before⟩ (inside ▸ List.mem_cons_self)
      exact opened.2.2.2
    apply isPlaced_close read reached inside
    rintro ⟨begun, span, placed, -⟩
    obtain ⟨path, params, hash, own⟩ := call
    obtain rfl : own = ⟨start, bodyStart⟩ := span
    obtain ⟨ordered, positional, named⟩ := placed
    exact ⟨begun, ordered, body, reached.upTo, positional, named⟩

theorem isPlaced_of_run {trees : List Tree} (read : reading.IsPlaced cursor.position)
    (found : reading.run cursor = .ok (trees, after)) :
    AllPlaced trees ∧ Position.start.UpTo after.position := by
  fun_induction run reading cursor with
  | case1 reading cursor ended closed =>
    cases found
    exact ⟨allPlaced_reverse read.siblings, read.begun⟩
  | case2 => cases found
  | case3 => cases found
  | case4 reading cursor filled next behind step ih =>
    exact ih (isPlaced_of_moves read (moves_of_step step)) found

end Tree.Reading

namespace Template

variable {template : Template}

/-- The parts of every node that was read stand in it in order. -/
theorem isPlaced_of_read {source : String} (found : read source = .ok template) {id : NodeId}
    {node : Node} (present : template.get? id = some node) : node.IsPlaced := by
  obtain ⟨trees, cursor, finished, rfl⟩ := exists_trees_of_read found
  obtain ⟨placed, ended⟩ := Tree.Reading.isPlaced_of_run Tree.Reading.isPlaced_start finished
  by_cases top : id = root
  · subst top
    cases present.symm.trans (get?_root_ofTrees trees _)
    exact ⟨Position.upTo_refl _, ended⟩
  · obtain ⟨tree, member, shown⟩ := exists_subtree_of_get? present top
    obtain ⟨above, listed, within⟩ := Tree.mem_subtreesAll.mp member
    have own := placed above listed tree within
    cases tree with
    | leaf content =>
      cases present.symm.trans shown
      exact own
    | branch head below =>
      obtain ⟨ids, same, -⟩ := shown
      cases present.symm.trans same
      exact own

/-- Every span of a template that was read starts no later than it ends. -/
theorem spansAreOrdered_of_read {source : String} (found : read source = .ok template) :
    SpansAreOrdered template.spans := by
  intro span member
  obtain ⟨id, node, present, inside⟩ := mem_spans_iff.mp member
  exact Node.spansAreOrdered (isPlaced_of_read found present) span inside

end Template

end LayoutMarkup
