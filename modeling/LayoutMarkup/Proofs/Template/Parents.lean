import LayoutMarkup.Proofs.Template.Subtrees
import LayoutMarkup.Proofs.Template.Walks

/-! Parents. In a template that was read every node but the root stands once among the children of
one node, and what stands below the root has a greater id than all its children. So the store is a
tree, without a cycle and without a node that is left out. -/

namespace LayoutMarkup

namespace Tree

variable {template : Template}

mutual

/-- The nodes that storing a tree has added, but for its own node, are listed once as children. -/
theorem children_store (nodes : Array Node) :
    ∀ tree : Tree, Agrees template.get? nodes (store nodes tree).1 →
      ((List.range' nodes.size tree.count).flatMap template.children ++
        [(store nodes tree).2]).Perm (List.range' nodes.size tree.count)
  | .leaf content, agrees => by
    have found : template.get? nodes.size = some (.leaf content) :=
      shownAt_store nodes (.leaf content) agrees
    simp [count, store, Template.children, found, Node.children]
  | .branch head trees, agrees => by
    have found := Template.children_of_get? (agrees_last agrees)
    have below := children_storeAll nodes trees (agrees_children agrees)
    rw [size_storeAll] at found
    simp only [count, store, size_storeAll, List.range'_1_concat, List.flatMap_append,
      List.flatMap_singleton, found, Node.children]
    exact below.append_right _

theorem children_storeAll (nodes : Array Node) :
    ∀ trees : List Tree, Agrees template.get? nodes (storeAll nodes trees).1 →
      ((List.range' nodes.size (countAll trees)).flatMap template.children ++
        (storeAll nodes trees).2).Perm (List.range' nodes.size (countAll trees))
  | [], _ => by simp [countAll, storeAll]
  | tree :: trees, agrees => by
    have first := children_store nodes tree (agrees_first agrees)
    have others := children_storeAll (store nodes tree).1 trees (agrees_others agrees)
    rw [size_store] at others
    simp only [countAll, storeAll, ← List.range'_append_1, List.flatMap_append, List.append_assoc]
    refine (List.perm_middle.append_left _).trans ?_
    simpa using first.append others

end

theorem id_lt_store (nodes : Array Node) (tree : Tree) :
    (store nodes tree).2 < (store nodes tree).1.size := by
  cases tree <;> simp [store]

theorem ids_lt_storeAll (nodes : Array Node) (trees : List Tree) :
    ∀ id ∈ (storeAll nodes trees).2, id < (storeAll nodes trees).1.size := by
  induction trees generalizing nodes with
  | nil => simp [storeAll]
  | cons tree trees ih =>
    intro id member
    rcases List.mem_cons.mp member with same | later
    · subst same
      exact Nat.lt_of_lt_of_le (id_lt_store nodes tree) (size_le_storeAll _ trees)
    · exact ih _ id later

mutual

/-- What was stored lists only children that were stored before it. -/
theorem children_lt_store (nodes : Array Node) :
    ∀ tree : Tree, Agrees template.get? nodes (store nodes tree).1 →
      ∀ id, nodes.size ≤ id → id < (store nodes tree).1.size →
        ∀ child ∈ template.children id, child < id
  | .leaf content, agrees, id, lower, upper => by
    have last : id = nodes.size := by
      simp only [store, Array.size_push] at upper
      omega
    have found : template.get? nodes.size = some (.leaf content) :=
      shownAt_store nodes (.leaf content) agrees
    simp [last, Template.children, found, Node.children]
  | .branch head trees, agrees, id, lower, upper => by
    by_cases inner : id < (storeAll nodes trees).1.size
    · exact children_lt_storeAll nodes trees (agrees_children agrees) id lower inner
    · have last : id = (storeAll nodes trees).1.size := by
        simp only [store, Array.size_push] at upper
        omega
      subst last
      rw [Template.children_of_get? (agrees_last agrees)]
      exact ids_lt_storeAll nodes trees

theorem children_lt_storeAll (nodes : Array Node) :
    ∀ trees : List Tree, Agrees template.get? nodes (storeAll nodes trees).1 →
      ∀ id, nodes.size ≤ id → id < (storeAll nodes trees).1.size →
        ∀ child ∈ template.children id, child < id
  | [], _, id, lower, upper => by
    simp only [storeAll] at upper
    omega
  | tree :: trees, agrees, id, lower, upper => by
    by_cases inner : id < (store nodes tree).1.size
    · exact children_lt_store nodes tree (agrees_first agrees) id lower inner
    · exact children_lt_storeAll (store nodes tree).1 trees (agrees_others agrees) id
        (Nat.not_lt.mp inner) upper

end

end Tree

namespace Template

/-- What holds of the ids of a template that was read. -/
structure IsNumbered (template : Template) : Prop where
  /-- The root and no other node is a program. -/
  programs : ∀ id, (∃ span ids, template.get? id = some (.branch (.program span) ids)) ↔ id = root
  /-- Every other node stands once among the children of one node. -/
  parent : ∀ id < template.size, id ≠ root →
    ∃ parent, (template.children parent).count id = 1 ∧
      ∀ other, id ∈ template.children other → other = parent
  /-- Whatever is a child is such a node. -/
  child : ∀ parent, ∀ id ∈ template.children parent, id < template.size ∧ id ≠ root
  /-- Children come before their parents. -/
  below : ∀ parent, parent ≠ root → ∀ id ∈ template.children parent, id < parent
  /-- In document order every node comes once. -/
  order : template.descendants.Perm (List.range template.size)

/-- The children of all nodes together are all nodes but the root, each of them once. -/
theorem children_ofTrees (trees : List Tree) (span : Span) :
    ((List.range (ofTrees trees span).size).flatMap (ofTrees trees span).children).Perm
      (List.range' 1 (Tree.countAll trees)) := by
  have found := children_of_get? (get?_root_ofTrees trees span)
  have below := Tree.children_storeAll _ trees (agrees_ofTrees trees span)
  have start : (empty span).nodes.size = 1 := rfl
  rw [start] at below
  rw [size_ofTrees, List.range_eq_range', List.range'_succ, List.flatMap_cons]
  simp only [root, Node.children] at found
  rw [found]
  exact List.perm_append_comm.trans below

section Numbered

variable (trees : List Tree) (span : Span) {parent id : NodeId}

/-- The ids of the nodes that are children are those of all nodes but the root. -/
theorem exists_parent_iff : (∃ parent, id ∈ (ofTrees trees span).children parent) ↔
    id < (ofTrees trees span).size ∧ id ≠ root := by
  have listed := (children_ofTrees trees span).mem_iff (a := id)
  have inside : id ∈ List.range' 1 (Tree.countAll trees) ↔
      id < (ofTrees trees span).size ∧ id ≠ root := by
    rw [List.mem_range'_1, size_ofTrees, Nat.one_le_iff_ne_zero, Nat.add_comm 1, and_comm, root]
  rw [← inside, ← listed, List.mem_flatMap]
  refine exists_congr fun parent => ⟨fun member => ⟨?_, member⟩, And.right⟩
  exact List.mem_range.mpr (lt_size_of_mem_children member)

/-- No node stands twice among the children of one node, or among those of two. -/
theorem child_once (member : id ∈ (ofTrees trees span).children parent) :
    ((ofTrees trees span).children parent).count id = 1 ∧
      ∀ other, id ∈ (ofTrees trees span).children other → other = parent := by
  have stored := List.mem_range.mpr (lt_size_of_mem_children member)
  obtain ⟨repeated, apart⟩ := List.nodup_flatMap.mp
    ((children_ofTrees trees span).nodup_iff.mpr List.nodup_range')
  refine ⟨List.count_eq_one_of_mem (repeated parent stored) member, ?_⟩
  intro other also
  by_contra different
  have stored' := List.mem_range.mpr (lt_size_of_mem_children also)
  have : Std.Symm (Function.onFun List.Disjoint (ofTrees trees span).children) :=
    ⟨fun _ _ disjoint => List.disjoint_symm disjoint⟩
  exact apart.forall stored' stored different also member

theorem child_lt_parent (inner : parent ≠ root)
    (member : id ∈ (ofTrees trees span).children parent) : id < parent := by
  have bound := lt_size_of_mem_children member
  refine Tree.children_lt_storeAll _ trees (agrees_ofTrees trees span) parent
    (Nat.one_le_iff_ne_zero.mpr inner) ?_ id member
  rw [size_ofTrees] at bound
  rw [Tree.size_storeAll, Nat.add_comm]
  exact bound

variable {trees}

theorem program_iff_root (legal : Tree.AllRead trees .stop) :
    (∃ span' ids, (ofTrees trees span).get? id = some (.branch (.program span') ids)) ↔
      id = root := by
  constructor
  · rintro ⟨span', ids, found⟩
    by_contra below
    exact isRead_of_get?_branch legal found below
  · rintro rfl
    exact ⟨span, _, get?_root_ofTrees trees span⟩

theorem isNumbered_ofTrees (legal : Tree.AllRead trees .stop) : (ofTrees trees span).IsNumbered where
  programs _ := program_iff_root span legal
  parent _ bound inner :=
    let ⟨parent, member⟩ := (exists_parent_iff trees span).mpr ⟨bound, inner⟩
    ⟨parent, child_once trees span member⟩
  child parent _ member := (exists_parent_iff trees span).mp ⟨parent, member⟩
  below _ inner _ := child_lt_parent trees span inner
  order := descendants_ofTrees trees span

end Numbered

theorem isNumbered_of_read {source : String} {template : Template}
    (found : read source = .ok template) : template.IsNumbered := by
  obtain ⟨trees, cursor, finished, rfl⟩ := exists_trees_of_read found
  exact isNumbered_ofTrees _ (Tree.allRead_of_read finished)

end Template

end LayoutMarkup
