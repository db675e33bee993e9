import LayoutMarkup.Template.Print
import LayoutMarkup.Template.Read
import Mathlib.Data.List.Range

/-! Stored trees. A template made of trees shows them below its root: what it prints is the written
form of the trees, and its ids from zero on are the nodes in document order, each of them once. -/

namespace LayoutMarkup

namespace Tree

mutual

/-- How many nodes a tree has. -/
def count : Tree → Nat
  | .leaf _ => 1
  | .branch _ trees => countAll trees + 1

def countAll : List Tree → Nat
  | [] => 0
  | tree :: trees => count tree + countAll trees

end

theorem countAll_append (first second : List Tree) :
    countAll (first ++ second) = countAll first + countAll second := by
  induction first with
  | nil => simp [countAll]
  | cons tree first ih => simp [countAll, ih, Nat.add_assoc]

theorem countAll_reverse (trees : List Tree) : countAll trees.reverse = countAll trees := by
  induction trees with
  | nil => rfl
  | cons tree trees ih =>
    rw [List.reverse_cons, countAll_append, ih, Nat.add_comm]
    rfl

mutual

/-- The written form of a tree. -/
def write : Tree → List Char
  | .leaf content => content.write
  | .branch head trees => head.write trees.isEmpty (writeAll trees)

def writeAll : List Tree → List Char
  | [] => []
  | tree :: trees => write tree ++ writeAll trees

end

theorem writeAll_append (first second : List Tree) :
    writeAll (first ++ second) = writeAll first ++ writeAll second := by
  induction first with
  | nil => rfl
  | cons tree trees ih => simp [writeAll, ih]

/-- An element that ends with its start tag is written as that tag. -/
theorem write_lone {element : Element}
    (whole : (element.selfClosing || isVoidTag element.tag) = true) :
    write (.branch (.element element) []) = element.writeStart := by
  simp only [write, Head.write, List.isEmpty_nil, Bool.true_and, whole, if_true]

/-- Any other element is written as its children between its tags. -/
theorem write_between {element : Element} (trees : List Tree)
    (ordinary : (element.selfClosing || isVoidTag element.tag) = false) :
    write (.branch (.element element) trees) =
      element.writeStart ++ writeAll trees ++ element.writeEnd := by
  rw [Bool.or_eq_false_iff] at ordinary
  simp [write, Head.write, ordinary]

/-- What is written of an element begins with its start tag. -/
theorem writeStart_prefix_element (element : Element) (trees : List Tree) :
    element.writeStart <+: write (.branch (.element element) trees) := by
  rw [write, Head.write]
  split
  · exact List.prefix_rfl
  · rw [List.append_assoc]
    exact List.prefix_append _ _

/-- What is written of a block begins with its opening. -/
theorem writeStart_prefix_block (block : Block) (trees : List Tree) :
    block.writeStart <+: write (.branch (.block block) trees) := by
  rw [write, Head.write, List.append_assoc]
  exact List.prefix_append _ _

mutual

/-- A store in which an id is the root of a tree. -/
def ShownAt (lookup : NodeId → Option Node) : Tree → NodeId → Prop
  | .leaf content, id => lookup id = some (.leaf content)
  | .branch head trees, id => ∃ ids, lookup id = some (.branch head ids) ∧ ShownAll lookup trees ids

def ShownAll (lookup : NodeId → Option Node) : List Tree → List NodeId → Prop
  | [], ids => ids = []
  | tree :: trees, ids =>
    ∃ first others, ids = first :: others ∧ ShownAt lookup tree first ∧ ShownAll lookup trees others

end

mutual

theorem size_store (nodes : Array Node) :
    ∀ tree : Tree, (store nodes tree).1.size = nodes.size + tree.count
  | .leaf _ => by simp [store, count]
  | .branch _ trees => by
    simp only [store, Array.size_push, size_storeAll nodes trees, count]
    omega

theorem size_storeAll (nodes : Array Node) :
    ∀ trees : List Tree, (storeAll nodes trees).1.size = nodes.size + countAll trees
  | [] => by simp [storeAll, countAll]
  | tree :: trees => by
    simp only [storeAll, size_storeAll (store nodes tree).1 trees, size_store nodes tree, countAll]
    omega

end

mutual

/-- Storing a tree touches no node that is there already. -/
theorem store_kept (nodes : Array Node) :
    ∀ (tree : Tree) (id : NodeId), id < nodes.size → (store nodes tree).1[id]? = nodes[id]?
  | .leaf _, id, old => by
    simp only [store]
    rw [Array.getElem?_push_lt old, Array.getElem?_eq_getElem old]
  | .branch _ trees, id, old => by
    have bound : id < (storeAll nodes trees).1.size :=
      Nat.lt_of_lt_of_le old (size_le_storeAll nodes trees)
    simp only [store]
    rw [Array.getElem?_push_lt bound, ← Array.getElem?_eq_getElem bound]
    exact storeAll_kept nodes trees id old

theorem storeAll_kept (nodes : Array Node) :
    ∀ (trees : List Tree) (id : NodeId), id < nodes.size → (storeAll nodes trees).1[id]? = nodes[id]?
  | [], _, _ => rfl
  | tree :: trees, id, old => by
    have bound : id < (store nodes tree).1.size :=
      Nat.lt_of_lt_of_le old (size_le_store nodes tree)
    exact (storeAll_kept (store nodes tree).1 trees id bound).trans (store_kept nodes tree id old)

end

/-- A lookup that agrees with a store on the ids which were added to an earlier one. -/
def Agrees (lookup : NodeId → Option Node) (earlier later : Array Node) : Prop :=
  ∀ id, earlier.size ≤ id → id < later.size → lookup id = later[id]?

variable {lookup : NodeId → Option Node}

theorem agrees_first {nodes : Array Node} {tree : Tree} {trees : List Tree}
    (agrees : Agrees lookup nodes (storeAll nodes (tree :: trees)).1) :
    Agrees lookup nodes (store nodes tree).1 := by
  intro id lower upper
  have kept := storeAll_kept (store nodes tree).1 trees id upper
  rw [agrees id lower (Nat.lt_of_lt_of_le upper (size_le_storeAll _ trees))]
  exact kept

theorem agrees_others {nodes : Array Node} {tree : Tree} {trees : List Tree}
    (agrees : Agrees lookup nodes (storeAll nodes (tree :: trees)).1) :
    Agrees lookup (store nodes tree).1 (storeAll (store nodes tree).1 trees).1 := by
  intro id lower upper
  exact agrees id (Nat.le_trans (size_le_store nodes tree) lower) upper

theorem agrees_children {nodes : Array Node} {head : Head} {trees : List Tree}
    (agrees : Agrees lookup nodes (store nodes (.branch head trees)).1) :
    Agrees lookup nodes (storeAll nodes trees).1 := by
  intro id lower upper
  rw [agrees id lower (by simpa [store] using Nat.lt_succ_of_lt upper)]
  simp only [store]
  rw [Array.getElem?_push_lt upper, Array.getElem?_eq_getElem upper]

theorem agrees_last {nodes : Array Node} {head : Head} {trees : List Tree}
    (agrees : Agrees lookup nodes (store nodes (.branch head trees)).1) :
    lookup (storeAll nodes trees).1.size = some (.branch head (storeAll nodes trees).2) := by
  rw [agrees _ (size_le_storeAll nodes trees) (by simp [store])]
  simp [store]

mutual

theorem shownAt_store (nodes : Array Node) :
    ∀ tree : Tree, Agrees lookup nodes (store nodes tree).1 →
      ShownAt lookup tree (store nodes tree).2
  | .leaf content, agrees => by
    simp only [ShownAt, store] at agrees ⊢
    rw [agrees nodes.size (Nat.le_refl _) (by simp)]
    simp
  | .branch head trees, agrees =>
    ⟨(storeAll nodes trees).2, agrees_last agrees, shownAll_storeAll nodes trees (agrees_children agrees)⟩

theorem shownAll_storeAll (nodes : Array Node) :
    ∀ trees : List Tree, Agrees lookup nodes (storeAll nodes trees).1 →
      ShownAll lookup trees (storeAll nodes trees).2
  | [], _ => rfl
  | tree :: trees, agrees =>
    ⟨_, _, rfl, shownAt_store nodes tree (agrees_first agrees),
      shownAll_storeAll (store nodes tree).1 trees (agrees_others agrees)⟩

end

end Tree

namespace Template

variable {template : Template}

mutual

theorem writeNode_of_shownAt :
    ∀ (tree : Tree) (depth : Nat) (id : NodeId), tree.count ≤ depth →
      tree.ShownAt template.get? id → template.writeNode depth id = some tree.write
  | .leaf content, depth + 1, id, _, shown => by
    simp only [Tree.ShownAt] at shown
    simp [writeNode, shown, Tree.write]
  | .branch head trees, depth + 1, id, bound, shown => by
    obtain ⟨ids, found, below⟩ := shown
    have inner := writeNodes_of_shownAll trees depth ids
      (by simpa [Tree.count] using bound) below
    simp only [writeNode, found, inner.1, Tree.write]
    split
    · rename_i hidden
      cases head <;> simp_all [Head.hidesChildren, Head.element?, Head.write]
    · obtain ⟨texts, written, joined⟩ := inner.2
      simp [written, joined]

theorem writeNodes_of_shownAll :
    ∀ (trees : List Tree) (depth : Nat) (ids : List NodeId), Tree.countAll trees ≤ depth →
      Tree.ShownAll template.get? trees ids → ids.isEmpty = trees.isEmpty ∧
        ∃ texts, ids.mapM (template.writeNode depth) = some texts ∧
          texts.flatten = Tree.writeAll trees
  | [], depth, ids, _, shown => by
    simp only [Tree.ShownAll] at shown
    subst ids
    exact ⟨rfl, [], rfl, rfl⟩
  | tree :: trees, depth, ids, bound, shown => by
    obtain ⟨first, others, rfl, head, tail⟩ := shown
    simp only [Tree.countAll] at bound
    have written := writeNode_of_shownAt tree depth first (by omega) head
    obtain ⟨_, texts, rest, joined⟩ := writeNodes_of_shownAll trees depth others (by omega) tail
    refine ⟨rfl, tree.write :: texts, ?_, by simp [Tree.writeAll, joined]⟩
    simp [List.mapM_cons, written, rest]

end

theorem children_of_get? {id : NodeId} {node : Node} (found : template.get? id = some node) :
    template.children id = node.children := by
  simp [children, found]

theorem size_ofTrees (trees : List Tree) (span : Span) :
    (ofTrees trees span).size = Tree.countAll trees + 1 := by
  simp only [ofTrees, size, set, Array.size_setIfInBounds, Tree.size_storeAll, empty]
  simp
  omega

/-- The root of a template made of trees lists the ids under which they were stored. -/
theorem get?_root_ofTrees (trees : List Tree) (span : Span) :
    (ofTrees trees span).get? root =
      some (.branch (.program span) (Tree.storeAll (empty span).nodes trees).2) := by
  have bound := Nat.lt_of_lt_of_le (empty span).root_lt (Tree.size_le_storeAll _ trees)
  simp [ofTrees, get?, set, root, bound]

theorem agrees_ofTrees (trees : List Tree) (span : Span) :
    Tree.Agrees (ofTrees trees span).get? (empty span).nodes
      (Tree.storeAll (empty span).nodes trees).1 := by
  intro id lower upper
  have positive : 0 ≠ id := by
    have := (empty span).root_lt
    omega
  simp [ofTrees, get?, set, root, positive]

theorem shownAll_ofTrees (trees : List Tree) (span : Span) :
    Tree.ShownAll (ofTrees trees span).get? trees (Tree.storeAll (empty span).nodes trees).2 :=
  Tree.shownAll_storeAll _ trees (agrees_ofTrees trees span)

/-- The children of the root of a template made of trees are the trees. -/
theorem shownAll_of_children {trees : List Tree} {span : Span} {ids : List NodeId}
    (listed : (ofTrees trees span).children root = ids) :
    Tree.ShownAll (ofTrees trees span).get? trees ids := by
  rw [← listed, children_of_get? (get?_root_ofTrees trees span)]
  exact shownAll_ofTrees trees span

theorem countAll_le_size_ofTrees (trees : List Tree) (span : Span) :
    Tree.countAll trees ≤ (ofTrees trees span).size := by
  rw [size_ofTrees]
  omega

theorem ne_root_of_get? {trees : List Tree} {span : Span} {id : NodeId} {node : Node}
    (found : (ofTrees trees span).get? id = some node)
    (inner : ∀ span ids, node ≠ .branch (.program span) ids) : id ≠ root := by
  rintro rfl
  exact inner _ _ (Option.some.inj (found.symm.trans (get?_root_ofTrees trees span)))

/-- A template made of trees prints them one after the other. -/
theorem print_ofTrees (trees : List Tree) (span : Span) :
    (ofTrees trees span).print = some (String.ofList (Tree.writeAll trees)) := by
  have found := get?_root_ofTrees trees span
  obtain ⟨-, texts, written, joined⟩ := writeNodes_of_shownAll trees _ _
    (countAll_le_size_ofTrees trees span) (shownAll_ofTrees trees span)
  simp [print, writeNode, found, Head.hidesChildren, Head.element?, Head.write, written, joined]

mutual

/-- The nodes of a stored tree are those that storing it has added. -/
theorem preorder_store (nodes : Array Node) :
    ∀ (tree : Tree) (depth : Nat), tree.count ≤ depth →
      Tree.Agrees template.get? nodes (Tree.store nodes tree).1 →
      (template.preorder depth (Tree.store nodes tree).2).Perm (List.range' nodes.size tree.count)
  | .leaf content, depth + 1, _, agrees => by
    have found : template.get? nodes.size = some (.leaf content) :=
      Tree.shownAt_store nodes (.leaf content) agrees
    simp [preorder, children, found, Node.children, Tree.count, Tree.store]
  | .branch head trees, depth + 1, bound, agrees => by
    have found := children_of_get? (Tree.agrees_last agrees)
    rw [Tree.size_storeAll] at found
    have below := preorder_storeAll nodes trees depth
      (by simpa [Tree.count] using bound) (Tree.agrees_children agrees)
    simp only [preorder, Tree.store, found, Node.children, Tree.count, List.range'_1_concat,
      Tree.size_storeAll]
    exact (List.Perm.cons _ below).trans (List.perm_append_singleton _ _).symm

theorem preorder_storeAll (nodes : Array Node) :
    ∀ (trees : List Tree) (depth : Nat), Tree.countAll trees ≤ depth →
      Tree.Agrees template.get? nodes (Tree.storeAll nodes trees).1 →
      ((Tree.storeAll nodes trees).2.flatMap (template.preorder depth)).Perm
        (List.range' nodes.size (Tree.countAll trees))
  | [], _, _, _ => by simp [Tree.storeAll, Tree.countAll]
  | tree :: trees, depth, bound, agrees => by
    simp only [Tree.countAll] at bound
    have first := preorder_store nodes tree depth (by omega) (Tree.agrees_first agrees)
    have others := preorder_storeAll (Tree.store nodes tree).1 trees depth (by omega)
      (Tree.agrees_others agrees)
    rw [Tree.size_store] at others
    simp only [Tree.storeAll, List.flatMap_cons, Tree.countAll, ← List.range'_append_1]
    exact first.append others

end

/-- Document order lists every id of a template made of trees exactly once. -/
theorem descendants_ofTrees (trees : List Tree) (span : Span) :
    (ofTrees trees span).descendants.Perm (List.range (ofTrees trees span).size) := by
  have found := children_of_get? (get?_root_ofTrees trees span)
  have below := preorder_storeAll (empty span).nodes trees (ofTrees trees span).size
    (countAll_le_size_ofTrees trees span) (agrees_ofTrees trees span)
  simp only [descendants, preorder, found, Node.children]
  refine (List.Perm.cons _ below).trans (List.Perm.of_eq ?_)
  rw [size_ofTrees, List.range_eq_range', List.range'_succ]
  rfl

theorem nodup_descendants_ofTrees (trees : List Tree) (span : Span) :
    (ofTrees trees span).descendants.Nodup :=
  (descendants_ofTrees trees span).nodup_iff.mpr List.nodup_range

/-- A template that was read is made of the trees in its source. -/
theorem exists_trees_of_read {source : String} (found : Template.read source = .ok template) :
    ∃ trees cursor, Tree.read source = .ok (trees, cursor) ∧
      template = ofTrees trees ⟨.start, cursor.position⟩ := by
  unfold Template.read at found
  split at found
  · cases found
  · rename_i trees cursor finished
    exact ⟨trees, cursor, finished, (Except.ok.inj found).symm⟩

/-- The node of a template that has nothing else below its root. -/
def loneNode? (template : Template) : Option Node :=
  match template.children root with
  | [id] => template.get? id
  | _ => none

/-- A template made of trees has a lone node if it is made of one tree, and this is shown at the node. -/
theorem exists_tree_of_loneNode? {trees : List Tree} {span : Span} {node : Node}
    (lone : (ofTrees trees span).loneNode? = some node) :
    ∃ tree id, trees = [tree] ∧ tree.ShownAt (ofTrees trees span).get? id ∧
      (ofTrees trees span).get? id = some node := by
  unfold loneNode? at lone
  split at lone
  · rename_i id single
    have shown := shownAll_of_children single
    match trees with
    | [] => cases shown
    | [tree] =>
      obtain ⟨_, _, same, here, -⟩ := shown
      cases same
      exact ⟨tree, id, rfl, here, lone⟩
    | _ :: _ :: _ =>
      obtain ⟨_, _, same, -, _, _, rfl, -⟩ := shown
      cases same
  · cases lone

theorem loneNode?_ofTrees_leaf (content : Leaf) (span : Span) :
    (ofTrees [.leaf content] span).loneNode? = some (.leaf content) := rfl

/-- A source that a check finds readable and in order. -/
theorem exists_of_any {source : String} {check : Template → Bool}
    (holds : (read source).toOption.any check = true) :
    ∃ template, read source = .ok template ∧ check template = true := by
  cases found : read source with
  | error fault =>
    rw [found] at holds
    cases holds
  | ok template =>
    rw [found] at holds
    exact ⟨template, rfl, holds⟩

theorem nodup_descendants_of_read {source : String} (found : Template.read source = .ok template) :
    template.descendants.Nodup := by
  obtain ⟨trees, cursor, -, rfl⟩ := exists_trees_of_read found
  exact nodup_descendants_ofTrees trees _

end Template

end LayoutMarkup
