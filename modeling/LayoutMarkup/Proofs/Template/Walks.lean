import LayoutMarkup.Proofs.Template.FirstFailure
import LayoutMarkup.Proofs.Template.Storage
import LayoutMarkup.Template.Walk

/-! Walks that apply a rule. A walk reads the children of a node only after the rule has been applied
to it, from a stack that it fills as it goes; a transformation knows all ids beforehand. Where every
path down ends, the two are the same. -/

namespace LayoutMarkup

namespace Template

variable {ε : Type}

/-- Only a node of the store has children. -/
theorem lt_size_of_mem_children {template : Template} {parent id : NodeId}
    (member : id ∈ template.children parent) : parent < template.size := by
  unfold children at member
  split at member
  · rename_i found
    exact (Array.getElem?_eq_some_iff.mp found).1
  · cases member

/-- Every path down from an id is shorter than a bound. -/
def EndsWithin (template : Template) : Nat → NodeId → Prop
  | 0, _ => False
  | depth + 1, id => ∀ child ∈ template.children id, EndsWithin template depth child

theorem EndsWithin.succ {template : Template} {depth : Nat} {id : NodeId}
    (ends : template.EndsWithin depth id) : template.EndsWithin (depth + 1) id := by
  induction depth generalizing id with
  | zero => exact ends.elim
  | succ depth ih =>
    intro child member
    exact ih (ends child member)

theorem EndsWithin.mono {template : Template} {depth bound : Nat} {id : NodeId}
    (ends : template.EndsWithin depth id) (lower : depth ≤ bound) : template.EndsWithin bound id := by
  induction lower with
  | refl => exact ends
  | step _ ih => exact ih.succ

theorem endsWithin_congr {first second : Template}
    (same : ∀ id, first.children id = second.children id) {depth : Nat} {id : NodeId}
    (ends : first.EndsWithin depth id) : second.EndsWithin depth id := by
  induction depth generalizing id with
  | zero => exact ends.elim
  | succ depth ih =>
    intro child member
    rw [← same id] at member
    exact ih (ends child member)

/-- The children of a node end within its bound as well. -/
theorem EndsWithin.child {template : Template} {depth : Nat} {id child : NodeId}
    (ends : template.EndsWithin depth id) (member : child ∈ template.children id) :
    template.EndsWithin depth child := by
  cases depth with
  | zero => exact ends.elim
  | succ depth => exact EndsWithin.succ (ends child member)

/-- Below the bound there is nothing more to list. -/
theorem preorder_succ {template : Template} {depth : Nat} {id : NodeId}
    (ends : template.EndsWithin depth id) :
    template.preorder (depth + 1) id = template.preorder depth id := by
  induction depth generalizing id with
  | zero => exact ends.elim
  | succ depth ih =>
    have below : (template.children id).flatMap (template.preorder (depth + 1)) =
        (template.children id).flatMap (template.preorder depth) :=
      List.flatMap_congr fun child member => ih (ends child member)
    rw [preorder, below, preorder]

/-- A node comes before all nodes below it, which need no lower bound than the node itself. -/
theorem preorder_eq_cons {template : Template} {depth : Nat} {id : NodeId}
    (ends : template.EndsWithin depth id) :
    template.preorder depth id = id :: (template.children id).flatMap (template.preorder depth) := by
  rw [← preorder_succ ends, preorder]

/-- The visitor that applies a rule to each node. -/
def ruleVisitor (rule : Head.Rule ε) : Visitor Unit ε := fun id state =>
  let result := state.1.applyAt rule id
  ((result.1, state.2), result.2)

/-- A walk from a stack applies the rule to the ids on it and all ids below them, in document order.
The stack that is left after a visit spans the rest of this order, for no rule changes children. -/
theorem walkFrom_ruleVisitor (rule : Head.Rule ε) {template : Template} {depth fuel : Nat}
    {waiting : List NodeId} (ends : ∀ id ∈ waiting, template.EndsWithin depth id)
    (enough : (waiting.flatMap (template.preorder depth)).length ≤ fuel) :
    walkFrom (ruleVisitor rule) fuel waiting (template, ()) =
      let result := applyEach rule (waiting.flatMap (template.preorder depth)) template
      some ((result.1, ()), result.2) := by
  induction fuel generalizing template waiting with
  | zero =>
    cases waiting with
    | nil => rfl
    | cons id waiting => simp [preorder_eq_cons (ends id List.mem_cons_self)] at enough
  | succ fuel ih =>
    cases waiting with
    | nil => rfl
    | cons id waiting =>
      have here := ends id List.mem_cons_self
      rw [List.flatMap_cons, preorder_eq_cons here, List.cons_append, ← List.flatMap_append]
        at enough ⊢
      rw [applyEach_cons, walkFrom]
      cases failed : (template.applyAt rule id).2 with
      | some failure => simp [ruleVisitor, failed]
      | none =>
        have children := children_applyAt rule template id
        have same : (template.applyAt rule id).1.preorder depth = template.preorder depth :=
          funext (preorder_congr children depth)
        have stacked : ∀ other ∈ template.children id ++ waiting,
            (template.applyAt rule id).1.EndsWithin depth other := by
          intro other member
          apply endsWithin_congr fun node => (children node).symm
          rcases List.mem_append.mp member with below | beside
          · exact here.child below
          · exact ends other (List.mem_cons_of_mem id beside)
        have rest := ih stacked (by rw [same]; simpa using enough)
        rw [same] at rest
        simpa [ruleVisitor, failed, children] using rest

end Template

namespace Tree

variable {template : Template}

mutual

/-- No path within a tree is longer than the tree has nodes. -/
theorem endsWithin_of_shownAt :
    ∀ (tree : Tree) (id : NodeId), tree.ShownAt template.get? id →
      template.EndsWithin tree.count id
  | .leaf content, id, shown => by
    have found : template.get? id = some (.leaf content) := shown
    intro child member
    simp [Template.children, found, Node.children] at member
  | .branch head trees, id, shown => by
    obtain ⟨ids, found, below⟩ := shown
    intro child member
    rw [Template.children_of_get? found] at member
    exact endsWithin_of_shownAll trees ids below child member

theorem endsWithin_of_shownAll :
    ∀ (trees : List Tree) (ids : List NodeId), ShownAll template.get? trees ids →
      ∀ id ∈ ids, template.EndsWithin (countAll trees) id
  | [], ids, shown, id, member => by
    have none : ids = [] := shown
    simp [none] at member
  | tree :: trees, ids, shown, id, member => by
    obtain ⟨first, others, rfl, head, tail⟩ := shown
    rcases List.mem_cons.mp member with same | other
    · subst id
      exact (endsWithin_of_shownAt tree first head).mono (by simp [countAll])
    · exact (endsWithin_of_shownAll trees others tail id other).mono (by simp [countAll])

end

end Tree

namespace Template

/-- A template that is a tree: from the root every id is reached once, on a path that ends. -/
structure IsTree (template : Template) : Prop where
  order : template.descendants.Perm (List.range template.size)
  ends : template.EndsWithin template.size root

theorem isTree_ofTrees (trees : List Tree) (span : Span) : (ofTrees trees span).IsTree := by
  refine ⟨descendants_ofTrees trees span, ?_⟩
  rw [size_ofTrees]
  intro child member
  rw [children_of_get? (get?_root_ofTrees trees span)] at member
  exact Tree.endsWithin_of_shownAll trees _ (shownAll_ofTrees trees span) child member

theorem isTree_of_read {source : String} {template : Template}
    (found : Template.read source = .ok template) : template.IsTree := by
  obtain ⟨trees, cursor, -, rfl⟩ := exists_trees_of_read found
  exact isTree_ofTrees trees _

section

variable {ε : Type} {template after : Template} (tree : template.IsTree)

include tree

theorem nodup_descendants_of_isTree : template.descendants.Nodup :=
  tree.order.nodup_iff.mpr List.nodup_range

theorem length_descendants_of_isTree : template.descendants.length = template.size := by
  simpa using tree.order.length_eq

/-- There is nothing at an id that is not reached. -/
theorem get?_of_not_mem_descendants {id : NodeId} (unreached : id ∉ template.descendants) :
    template.get? id = none := by
  rw [tree.order.mem_iff, List.mem_range, Nat.not_lt] at unreached
  exact Array.getElem?_eq_none unreached

/-- A transformation, failing or not, leaves a tree. -/
theorem isTree_transform (rule : Head.Rule ε) : (template.transform rule).1.IsTree := by
  have order : (template.transform rule).1.descendants = template.descendants :=
    descendants_applyEach rule template template.descendants
  have size : (template.transform rule).1.size = template.size :=
    size_applyEach rule template template.descendants
  constructor
  · rw [order, size]
    exact tree.order
  · rw [size]
    exact endsWithin_congr (fun id => (children_applyEach rule template _ id).symm) tree.ends

/-- A walk that applies a rule is the transformation by the rule. -/
theorem walk_eq_iff {rule : Head.Rule ε} {failure : Option ε} {fuel : Nat}
    (enough : template.size ≤ fuel) :
    template.walk (ruleVisitor rule) () fuel = some ((after, ()), failure) ↔
      template.transform rule = (after, failure) := by
  have stacked : ∀ id ∈ [root], template.EndsWithin (template.size + 1) id := by
    simpa using tree.ends.succ
  have visits : ([root].flatMap (template.preorder (template.size + 1))).length ≤ fuel := by
    have length := length_descendants_of_isTree tree
    rw [descendants] at length
    simpa [length] using enough
  have walked : template.walk (ruleVisitor rule) () fuel =
      some (((template.transform rule).1, ()), (template.transform rule).2) := by
    simpa [walk, transform, descendants] using walkFrom_ruleVisitor rule stacked visits
  rw [walked]
  simp [Prod.ext_iff]

/-- After a transformation without a failure, each node is what the rule makes of it. -/
theorem get?_of_transform {rule : Head.Rule ε} (done : template.transform rule = (after, none))
    (id : NodeId) : after.get? id = (template.get? id).map (Node.ruled rule) := by
  rw [get?_of_applyEach (nodup_descendants_of_isTree tree) done id]
  split
  · rfl
  · rename_i unreached
    rw [get?_of_not_mem_descendants tree unreached]
    rfl

end

end Template

end LayoutMarkup
