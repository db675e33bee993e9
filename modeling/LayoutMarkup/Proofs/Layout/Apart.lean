import LayoutMarkup.Layout.Component
import LayoutMarkup.Proofs.Template.Legible
import LayoutMarkup.Proofs.Template.OtherHeads

/-! Texts apart from components. Where an element becomes a component, the text before it and the last
text in it stand before braces that were angle brackets; no other text has another neighbour. -/

namespace LayoutMarkup

def Head.isComponent (head : Head) : Bool := head.element?.any Element.isComponent

/-- The head that assembly makes of a head. -/
def Head.assembled (head : Head) : Head := (componentRule head).1

/-- Something of a kind, or the braces of a component. -/
def Front.orComponent (next : Front) (component : Bool) : Front := if component then .brace else next

namespace Template

/-- Whether an id is one of a text that ends with a brace. -/
def endsInBrace (template : Template) (id : NodeId) : Bool :=
  match template.get? id with
  | some (.leaf content) => content.endsInBrace
  | _ => false

def isComponent (template : Template) (id : NodeId) : Bool :=
  (template.element? id).any Element.isComponent

/-- Whether none of some siblings ends with a brace right before a component; whether the braces of a
component stand behind the last of them has to be told. -/
def apartAmong (template : Template) (closing : Bool) : List NodeId → Bool
  | [] => true
  | id :: ids =>
    !(template.endsInBrace id && (ids.head?.map template.isComponent).getD closing) &&
      apartAmong template closing ids

/-- Whether no text that ends with a brace stands right before a component or last in one. -/
def isApart (template : Template) : Bool :=
  template.descendants.all fun id => template.apartAmong (template.isComponent id) (template.children id)

end Template

namespace Tree

def isComponent : Tree → Bool
  | .leaf _ => false
  | .branch head _ => head.isComponent

/-- Whether trees begin with a component, or what stands behind them does. -/
def componentNext (trees : List Tree) (closing : Bool) : Bool :=
  (trees.head?.map isComponent).getD closing

mutual

/-- Whether no text in a tree that ends with a brace stands right before a component or last in one. -/
def isApart : Tree → Bool → Bool
  | .leaf content, component => !(content.endsInBrace && component)
  | .branch head trees, _ => allApart trees head.isComponent

def allApart : List Tree → Bool → Bool
  | [], _ => true
  | tree :: trees, closing => isApart tree (componentNext trees closing) && allApart trees closing

end

/-- The trees that assembly makes of trees. -/
def assembledAll (trees : List Tree) : List Tree := mapHeadsAll Head.assembled trees

end Tree

theorem Head.front_assembled (head : Head) : head.assembled.front = head.front.orComponent head.isComponent := by
  cases head with
  | program span => rfl
  | block block => rfl
  | element element =>
    by_cases component : element.isComponent = true
    · simp [assembled, componentRule, isComponent, element?, Front.orComponent, component, front]
    · simp [assembled, componentRule, isComponent, element?, Front.orComponent, component]

namespace Tree

theorem front_assembled (tree : Tree) :
    (tree.mapHeads Head.assembled).front = tree.front.orComponent tree.isComponent := by
  cases tree with
  | leaf content => rfl
  | branch head trees => exact head.front_assembled

theorem frontAll_assembledAll (trees : List Tree) (next : Front) (closing : Bool) :
    frontAll (assembledAll trees) (next.orComponent closing) =
      (frontAll trees next).orComponent (componentNext trees closing) := by
  cases trees with
  | nil => rfl
  | cons tree trees => exact tree.front_assembled

theorem isClear_orComponent (content : Leaf) (next : Front) (component : Bool) :
    content.isClear (next.orComponent component) =
      (content.isClear next && !(content.endsInBrace && component)) := by
  cases component with
  | false => simp [Front.orComponent]
  | true =>
    simp only [Leaf.isClear, Front.orComponent, if_true, decide_true, Bool.and_true]
    cases content.endsInBrace <;> simp

mutual

/-- An assembled tree is clear if the tree was clear and its texts are apart from components. -/
theorem isClear_assembled : ∀ (tree : Tree) (next : Front) (component : Bool),
    (tree.mapHeads Head.assembled).isClear (next.orComponent component) =
      (tree.isClear next && tree.isApart component)
  | .leaf content, next, component => isClear_orComponent content next component
  | .branch head trees, next, component => by
    rw [mapHeads, isClear, head.front_assembled]
    exact allClear_assembledAll trees head.front head.isComponent

theorem allClear_assembledAll : ∀ (trees : List Tree) (next : Front) (closing : Bool),
    allClear (assembledAll trees) (next.orComponent closing) =
      (allClear trees next && allApart trees closing)
  | [], _, _ => rfl
  | tree :: trees, next, closing => by
    have first := isClear_assembled tree (frontAll trees next) (componentNext trees closing)
    have others := allClear_assembledAll trees next closing
    have front := frontAll_assembledAll trees next closing
    rw [assembledAll] at others front
    rw [assembledAll, mapHeadsAll, allClear, front, first, others, allClear, allApart]
    ac_rfl

end

variable {template : Template}

theorem isComponent_of_shownAt {tree : Tree} {id : NodeId} (shown : tree.ShownAt template.get? id) :
    template.isComponent id = tree.isComponent := by
  cases tree with
  | leaf content =>
    have found : template.get? id = some (.leaf content) := shown
    simp [Template.isComponent, Template.element?, found, Node.element?, isComponent]
  | branch head trees =>
    obtain ⟨ids, found, -⟩ := shown
    simp [Template.isComponent, Template.element?, found, Node.element?, isComponent,
      Head.isComponent]

theorem componentNext_of_shownAll {trees : List Tree} {ids : List NodeId} {closing : Bool}
    (shown : ShownAll template.get? trees ids) :
    componentNext trees closing = (ids.head?.map template.isComponent).getD closing := by
  cases trees with
  | nil =>
    obtain rfl : ids = [] := shown
    rfl
  | cons tree trees =>
    obtain ⟨first, others, rfl, top, -⟩ := shown
    exact (isComponent_of_shownAt top).symm

mutual

/-- Whether the texts in a tree are apart from components can be asked of a template that shows it. -/
theorem isApart_of_shownAt : ∀ (tree : Tree) (depth : Nat) (id : NodeId) (component : Bool),
    tree.count ≤ depth → tree.ShownAt template.get? id →
      tree.isApart component =
        (!(template.endsInBrace id && component) && (template.preorder depth id).all fun id =>
          template.apartAmong (template.isComponent id) (template.children id))
  | .leaf content, depth + 1, id, component, _, shown => by
    have found : template.get? id = some (.leaf content) := shown
    simp [isApart, Template.endsInBrace, Template.preorder, Template.children, found, Node.children,
      Template.apartAmong]
  | .branch head trees, depth + 1, id, component, bound, ⟨ids, found, below⟩ => by
    have text : template.endsInBrace id = false := by simp [Template.endsInBrace, found]
    have shown : ShownAt template.get? (.branch head trees) id := ⟨ids, found, below⟩
    have top : template.isComponent id = head.isComponent := isComponent_of_shownAt shown
    have inner := allApart_of_shownAll trees depth ids head.isComponent
      (by simpa [count] using bound) below
    simp only [isApart, inner, Template.preorder, List.all_cons, Template.children_of_get? found,
      Node.children, top, text, Bool.false_and, Bool.not_false, Bool.true_and]

theorem allApart_of_shownAll : ∀ (trees : List Tree) (depth : Nat) (ids : List NodeId)
    (closing : Bool), countAll trees ≤ depth → ShownAll template.get? trees ids →
      allApart trees closing = (template.apartAmong closing ids &&
        (ids.flatMap (template.preorder depth)).all fun id =>
          template.apartAmong (template.isComponent id) (template.children id))
  | [], _, _, _, _, rfl => rfl
  | tree :: trees, depth, _, closing, bound, ⟨first, others, rfl, shown, below⟩ => by
    simp only [countAll] at bound
    rw [allApart, isApart_of_shownAt tree depth first _ (by omega) shown,
      allApart_of_shownAll trees depth others closing (by omega) below, Template.apartAmong,
      componentNext_of_shownAll below, List.flatMap_cons, List.all_append]
    ac_rfl

end

end Tree

/-- In a template made of trees texts are apart from components if they are in the trees. -/
theorem Template.isApart_ofTrees (trees : List Tree) (span : Span) :
    (ofTrees trees span).isApart = Tree.allApart trees false := by
  have found := get?_root_ofTrees trees span
  have top : (ofTrees trees span).isComponent root = false := by
    simp [isComponent, element?, found, Node.element?, Head.element?]
  rw [isApart, descendants, preorder, List.all_cons, children_of_get? found, Node.children, top,
    Tree.allApart_of_shownAll trees _ _ false (countAll_le_size_ofTrees trees span)
      (shownAll_ofTrees trees span)]

end LayoutMarkup
