import LayoutMarkup.Proofs.Template.CanonicalReading
import LayoutMarkup.Proofs.Template.Storage
import LayoutMarkup.Proofs.Template.Traversal

/-! The trees within trees. Every node of a template made of trees, its root apart, is the top of a
tree that stands somewhere in them, so that what holds of all these trees holds of all nodes. -/

namespace LayoutMarkup

namespace Tree

mutual

/-- A tree and every tree in it. -/
def subtrees : Tree → List Tree
  | .leaf content => [.leaf content]
  | .branch head trees => .branch head trees :: subtreesAll trees

def subtreesAll : List Tree → List Tree
  | [] => []
  | tree :: trees => subtrees tree ++ subtreesAll trees

end

variable {lookup : NodeId → Option Node}

mutual

/-- Each id that storing a tree has added shows a tree in it. -/
theorem exists_shownAt_store (nodes : Array Node) :
    ∀ tree : Tree, Agrees lookup nodes (store nodes tree).1 →
      ∀ id, nodes.size ≤ id → id < (store nodes tree).1.size →
        ∃ below ∈ tree.subtrees, below.ShownAt lookup id
  | .leaf content, agrees, id, lower, upper => by
    have last : id = nodes.size := by
      simp only [store, Array.size_push] at upper
      omega
    subst last
    exact ⟨_, List.mem_singleton.mpr rfl, shownAt_store nodes (.leaf content) agrees⟩
  | .branch head trees, agrees, id, lower, upper => by
    by_cases inner : id < (storeAll nodes trees).1.size
    · obtain ⟨below, member, shown⟩ :=
        exists_shownAt_storeAll nodes trees (agrees_children agrees) id lower inner
      exact ⟨below, List.mem_cons_of_mem _ member, shown⟩
    · have last : id = (storeAll nodes trees).1.size := by
        simp only [store, Array.size_push] at upper
        omega
      subst last
      exact ⟨_, List.mem_cons_self, shownAt_store nodes (.branch head trees) agrees⟩

theorem exists_shownAt_storeAll (nodes : Array Node) :
    ∀ trees : List Tree, Agrees lookup nodes (storeAll nodes trees).1 →
      ∀ id, nodes.size ≤ id → id < (storeAll nodes trees).1.size →
        ∃ below ∈ subtreesAll trees, below.ShownAt lookup id
  | [], _, id, lower, upper => by
    simp only [storeAll] at upper
    omega
  | tree :: trees, agrees, id, lower, upper => by
    by_cases inner : id < (store nodes tree).1.size
    · obtain ⟨below, member, shown⟩ :=
        exists_shownAt_store nodes tree (agrees_first agrees) id lower inner
      exact ⟨below, List.mem_append_left _ member, shown⟩
    · obtain ⟨below, member, shown⟩ := exists_shownAt_storeAll (store nodes tree).1 trees
        (agrees_others agrees) id (Nat.not_lt.mp inner) upper
      exact ⟨below, List.mem_append_right _ member, shown⟩

end

mutual

/-- Whatever stands in a tree that was read has the form of what was read. -/
theorem exists_isRead_of_mem_subtrees : ∀ (tree : Tree) (next : Front), tree.IsRead next →
    ∀ below ∈ tree.subtrees, ∃ next, below.IsRead next
  | .leaf content, next, read, below, member => by
    obtain rfl := List.mem_singleton.mp member
    exact ⟨next, read⟩
  | .branch head trees, next, read, below, member => by
    rcases List.mem_cons.mp member with rfl | deeper
    · exact ⟨next, read⟩
    · exact exists_isRead_of_mem_subtreesAll trees head.front read.2.2 below deeper

theorem exists_isRead_of_mem_subtreesAll : ∀ (trees : List Tree) (next : Front), AllRead trees next →
    ∀ below ∈ subtreesAll trees, ∃ next, below.IsRead next
  | tree :: trees, next, read, below, member => by
    rcases List.mem_append.mp member with inside | behind
    · exact exists_isRead_of_mem_subtrees tree _ read.1 below inside
    · exact exists_isRead_of_mem_subtreesAll trees next read.2 below behind

end

end Tree

namespace Template

/-- A node of a template made of trees is its root or the top of a tree in them. -/
theorem exists_subtree_of_get? {trees : List Tree} {span : Span} {id : NodeId} {node : Node}
    (found : (ofTrees trees span).get? id = some node) (below : id ≠ root) :
    ∃ tree ∈ Tree.subtreesAll trees, tree.ShownAt (ofTrees trees span).get? id := by
  have bound := (Array.getElem?_eq_some_iff.mp found).1
  have size : (ofTrees trees span).nodes.size = Tree.countAll trees + 1 := size_ofTrees trees span
  refine Tree.exists_shownAt_storeAll _ trees (agrees_ofTrees trees span) id ?_ ?_
  · exact Nat.one_le_iff_ne_zero.mpr below
  · rw [Tree.size_storeAll]
    rw [size, Nat.add_comm] at bound
    exact bound

section OfTrees

variable {trees : List Tree} {span : Span} {id : NodeId}

/-- A node of a template made of trees that were read is its root or shows a tree that was read. -/
theorem exists_isRead_of_get? {node : Node} (read : Tree.AllRead trees .stop)
    (found : (ofTrees trees span).get? id = some node) (below : id ≠ root) :
    ∃ (tree : Tree) (next : Front), tree.ShownAt (ofTrees trees span).get? id ∧ tree.IsRead next := by
  obtain ⟨tree, member, shown⟩ := exists_subtree_of_get? found below
  obtain ⟨next, own⟩ := Tree.exists_isRead_of_mem_subtreesAll trees .stop read tree member
  exact ⟨tree, next, shown, own⟩

theorem isRead_of_get?_branch {head : Head} {ids : List NodeId} (read : Tree.AllRead trees .stop)
    (found : (ofTrees trees span).get? id = some (.branch head ids)) (below : id ≠ root) :
    head.IsRead := by
  obtain ⟨tree, next, shown, own⟩ := exists_isRead_of_get? read found below
  cases tree with
  | leaf content => cases found.symm.trans shown
  | branch head trees =>
    obtain ⟨others, same, -⟩ := shown
    cases found.symm.trans same
    exact own.1

theorem isRead_of_get?_leaf {content : Leaf} (read : Tree.AllRead trees .stop)
    (found : (ofTrees trees span).get? id = some (.leaf content)) : ∃ next, content.IsRead next := by
  obtain ⟨tree, next, shown, own⟩ := exists_isRead_of_get? read found (ne_root_of_get? found (by simp))
  cases tree with
  | leaf content =>
    cases found.symm.trans shown
    exact ⟨next, own⟩
  | branch head trees =>
    obtain ⟨others, same, -⟩ := shown
    cases found.symm.trans same

end OfTrees

/-- The tag of every element in a template that was read is one that was read. -/
theorem tagIsRead_of_read {source : String} {template : Template} {id : NodeId} {element : Element}
    (found : read source = .ok template) (present : template.element? id = some element) :
    TagIsRead element.tag element.attributes := by
  obtain ⟨trees, cursor, finished, rfl⟩ := exists_trees_of_read found
  obtain ⟨ids, here⟩ := element?_eq_some_iff.mp present
  exact isRead_of_get?_branch (Tree.allRead_of_read finished) here (ne_root_of_get? here (by simp))

end Template

end LayoutMarkup
