import LayoutMarkup.Proofs.Template.Spans

/-! The kinds of the nodes of a template in document order. Those of a template made of trees are those
of the trees behind that of the root, and they do not depend on spans. -/

namespace LayoutMarkup

namespace Template

/-- The name of the kind of the node at an id, if there is one. -/
def kind? (template : Template) (id : NodeId) : Option String := (template.get? id).map Node.kind

/-- The kinds of all nodes that can be reached, in document order. -/
def kinds (template : Template) : List String := template.descendants.filterMap template.kind?

end Template

def Leaf.kind (content : Leaf) : String := (Node.leaf content).kind

def Head.kind (head : Head) : String := (Node.branch head []).kind

theorem Node.kind_branch (head : Head) (ids : List NodeId) : (Node.branch head ids).kind = head.kind := by
  cases head <;> rfl

theorem Leaf.kind_withoutSpans (content : Leaf) : content.withoutSpans.kind = content.kind := by
  cases content <;> rfl

theorem Head.kind_withoutSpans (head : Head) : head.withoutSpans.kind = head.kind := by
  cases head <;> rfl

namespace Tree

mutual

/-- The kinds of all nodes of a tree, each before those below it. -/
def kinds : Tree → List String
  | .leaf content => [content.kind]
  | .branch head trees => head.kind :: kindsAll trees

def kindsAll : List Tree → List String
  | [] => []
  | tree :: trees => tree.kinds ++ kindsAll trees

end

mutual

theorem kinds_withoutSpans : ∀ tree : Tree, tree.withoutSpans.kinds = tree.kinds
  | .leaf content => by rw [withoutSpans, kinds, content.kind_withoutSpans, kinds]
  | .branch head trees => by
    rw [withoutSpans, kinds, head.kind_withoutSpans, kindsAll_withoutSpans trees, kinds]

theorem kindsAll_withoutSpans :
    ∀ trees : List Tree, kindsAll (withoutSpansAll trees) = kindsAll trees
  | [] => rfl
  | tree :: trees => by
    rw [withoutSpansAll, kindsAll, kinds_withoutSpans tree, kindsAll_withoutSpans trees, kindsAll]

end

variable {template : Template}

mutual

/-- Below an id that shows a tree the kinds in document order are those of the tree. -/
theorem kinds_preorder : ∀ (tree : Tree) (depth : Nat) (id : NodeId), tree.count ≤ depth →
    tree.ShownAt template.get? id →
      (template.preorder depth id).filterMap template.kind? = tree.kinds
  | .leaf content, depth + 1, id, _, shown => by
    have found : template.get? id = some (.leaf content) := shown
    simp [Template.preorder, Template.children, Template.kind?, found, Node.children, kinds,
      Leaf.kind]
  | .branch head trees, depth + 1, id, bound, ⟨ids, found, below⟩ => by
    have kind : template.kind? id = some head.kind := by
      rw [Template.kind?, found, Option.map_some, Node.kind_branch]
    rw [Template.preorder, Template.children_of_get? found, List.filterMap_cons_some kind,
      Node.children, kindsAll_preorder trees depth ids (by simpa [count] using bound) below, kinds]

theorem kindsAll_preorder : ∀ (trees : List Tree) (depth : Nat) (ids : List NodeId),
    countAll trees ≤ depth → ShownAll template.get? trees ids →
      (ids.flatMap (template.preorder depth)).filterMap template.kind? = kindsAll trees
  | [], _, _, _, rfl => rfl
  | tree :: trees, depth, _, bound, ⟨first, others, rfl, shown, below⟩ => by
    simp only [countAll] at bound
    rw [List.flatMap_cons, List.filterMap_append, kinds_preorder tree depth first (by omega) shown,
      kindsAll_preorder trees depth others (by omega) below, kindsAll]

end

end Tree

/-- The kinds in a template made of trees are those of its root and of the trees. -/
theorem Template.kinds_ofTrees (trees : List Tree) (span : Span) :
    (ofTrees trees span).kinds = "Program" :: Tree.kindsAll trees := by
  have found := get?_root_ofTrees trees span
  have kind : (ofTrees trees span).kind? root = some "Program" := by
    rw [kind?, found]
    rfl
  rw [kinds, descendants, preorder, children_of_get? found, List.filterMap_cons_some kind,
    Node.children, Tree.kindsAll_preorder trees _ _ (countAll_le_size_ofTrees trees span)
      (shownAll_ofTrees trees span)]

end LayoutMarkup
