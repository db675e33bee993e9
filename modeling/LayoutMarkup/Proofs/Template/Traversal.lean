import LayoutMarkup.Template.Transform

/-! What a transformation by a rule does to a template, node by node. Only heads change; a node that
is visited once gets the head that the rule makes of its own. -/

namespace LayoutMarkup

namespace Node

variable {ε : Type}

/-- The node that a rule leaves behind when it meets a node. -/
def ruled (rule : Head.Rule ε) (node : Node) : Node := node.mapHead fun head => (rule head).1

/-- What a rule has to complain about when it meets a node. -/
def complaint (rule : Head.Rule ε) : Node → Option ε
  | .branch head _ => (rule head).2
  | .leaf _ => none

/-- A node that a rule neither changes nor complains about. -/
def Fixed (rule : Head.Rule ε) (node : Node) : Prop :=
  node.ruled rule = node ∧ node.complaint rule = none

theorem children_ruled (rule : Head.Rule ε) (node : Node) :
    (node.ruled rule).children = node.children := by
  cases node <;> rfl

end Node

namespace Template

variable {ε : Type} {rule : Head.Rule ε} {template after : Template}

theorem ext_get? {first second : Template} (same : ∀ id, first.get? id = second.get? id) :
    first = second := by
  obtain ⟨nodes, filled⟩ := first
  obtain ⟨others, _⟩ := second
  have equal : nodes = others := Array.ext_getElem? same
  subst others
  rfl

/-- The elements of a template are the heads of its nodes. -/
theorem element?_eq_some_iff {id : NodeId} {element : Element} :
    template.element? id = some element ↔
      ∃ children, template.get? id = some (.branch (.element element) children) := by
  unfold element?
  cases template.get? id with
  | none => simp
  | some node =>
    cases node with
    | leaf content => simp [Node.element?]
    | branch head children => cases head <;> simp [Node.element?, Head.element?]

theorem get?_set (template : Template) (id other : NodeId) (node : Node) :
    (template.set id node).get? other =
      if other = id then (template.get? other).map fun _ => node else template.get? other := by
  simp only [get?, set, Array.getElem?_setIfInBounds]
  by_cases same : other = id
  · subst other
    by_cases bound : id < template.nodes.size <;> simp [bound]
  · simp [same, Ne.symm same]

/-- Applying a rule at an id concerns the node there and no other. -/
theorem get?_applyAt (rule : Head.Rule ε) (template : Template) (id other : NodeId) :
    (template.applyAt rule id).1.get? other =
      if other = id then (template.get? other).map (Node.ruled rule) else template.get? other := by
  unfold applyAt
  split
  · rename_i head children found
    rw [get?_set]
    by_cases same : other = id
    · subst other
      simp [found, Node.ruled, Node.mapHead]
    · simp [same]
  · rename_i noBranch
    by_cases same : other = id
    · subst other
      cases found : template.get? id with
      | none => simp
      | some node =>
        cases node with
        | leaf content => simp [Node.ruled, Node.mapHead]
        | branch head children => exact absurd found (noBranch head children)
    · simp [same]

theorem failure_applyAt (rule : Head.Rule ε) (template : Template) (id : NodeId) :
    (template.applyAt rule id).2 = (template.get? id).bind (Node.complaint rule) := by
  unfold applyAt
  split
  · rename_i found
    simp [found, Node.complaint]
  · rename_i noBranch
    cases found : template.get? id with
    | none => rfl
    | some node =>
      cases node with
      | leaf content => rfl
      | branch head children => exact absurd found (noBranch head children)

theorem children_applyAt (rule : Head.Rule ε) (template : Template) (id other : NodeId) :
    (template.applyAt rule id).1.children other = template.children other := by
  simp only [children, get?_applyAt]
  by_cases same : other = id
  · cases template.get? other <;> simp [same, Node.children_ruled]
  · simp [same]

theorem size_applyAt (rule : Head.Rule ε) (template : Template) (id : NodeId) :
    (template.applyAt rule id).1.size = template.size := by
  unfold applyAt
  split <;> simp [size, set]

section

variable (rule template)

/-- A visit of the first id of a list: what the other ids are applied to, unless it fails. -/
theorem applyEach_cons (id : NodeId) (ids : List NodeId) :
    applyEach rule (id :: ids) template =
      match (template.applyAt rule id).2 with
      | some failure => ((template.applyAt rule id).1, some failure)
      | none => applyEach rule ids (template.applyAt rule id).1 := by
  rw [applyEach]
  split <;> rename_i visited <;> rw [visited]

/-- No traversal, failing or not, moves a node to other children. -/
theorem children_applyEach (ids : List NodeId) (other : NodeId) :
    (applyEach rule ids template).1.children other = template.children other := by
  induction ids generalizing template with
  | nil => rfl
  | cons id ids ih =>
    rw [applyEach_cons]
    split
    · exact children_applyAt rule template id other
    · rw [ih, children_applyAt]

theorem size_applyEach (ids : List NodeId) :
    (applyEach rule ids template).1.size = template.size := by
  induction ids generalizing template with
  | nil => rfl
  | cons id ids ih =>
    rw [applyEach_cons]
    split
    · exact size_applyAt rule template id
    · rw [ih, size_applyAt]

/-- Nodes whose ids are not on the list stay as they are. -/
theorem get?_applyEach_of_not_mem (ids : List NodeId) {other : NodeId} (absent : other ∉ ids) :
    (applyEach rule ids template).1.get? other = template.get? other := by
  induction ids generalizing template with
  | nil => rfl
  | cons id ids ih =>
    have apart : other ≠ id := List.ne_of_not_mem_cons absent
    have absent : other ∉ ids := List.not_mem_of_not_mem_cons absent
    rw [applyEach_cons]
    split
    · simp [get?_applyAt, apart]
    · rw [ih _ absent]
      simp [get?_applyAt, apart]

end

/-- Without repetitions, a node on the list gets what the rule makes of it, which is no failure. -/
theorem get?_applyEach_of_mem {ids : List NodeId} (once : ids.Nodup)
    (done : applyEach rule ids template = (after, none)) {id : NodeId} (member : id ∈ ids) :
    after.get? id = (template.get? id).map (Node.ruled rule) ∧
      (template.get? id).bind (Node.complaint rule) = none := by
  induction ids generalizing template with
  | nil => cases member
  | cons first ids ih =>
    obtain ⟨fresh, once⟩ := List.nodup_cons.mp once
    rw [applyEach_cons] at done
    split at done
    · cases done
    · rename_i accepted
      rw [failure_applyAt] at accepted
      rcases List.mem_cons.mp member with same | member
      · subst id
        have kept := get?_applyEach_of_not_mem rule (template.applyAt rule first).1 ids fresh
        rw [done] at kept
        exact ⟨by simpa [get?_applyAt] using kept, accepted⟩
      · have apart : id ≠ first := fun same => fresh (same ▸ member)
        simpa [get?_applyAt, apart] using ih once done member

theorem preorder_congr {first second : Template}
    (same : ∀ id, first.children id = second.children id) (depth : Nat) (id : NodeId) :
    first.preorder depth id = second.preorder depth id := by
  induction depth generalizing id with
  | zero => rfl
  | succ depth ih =>
    rw [preorder, preorder, same id]
    congr 2
    funext child
    exact ih child

/-- A traversal leaves the order of all nodes as it was. -/
theorem descendants_applyEach (rule : Head.Rule ε) (template : Template) (ids : List NodeId) :
    (applyEach rule ids template).1.descendants = template.descendants := by
  unfold descendants
  rw [size_applyEach]
  exact preorder_congr (children_applyEach rule template ids) _ _

theorem descendants_of_transform (done : template.transform rule = (after, none)) :
    after.descendants = template.descendants := by
  have same := descendants_applyEach rule template template.descendants
  rwa [show applyEach rule template.descendants template = (after, none) from done] at same

/-- A property of the node at an id that the rule preserves holds throughout a traversal. -/
theorem closed_applyEach {P : Node → Prop} (closed : ∀ node, P node → P (node.ruled rule))
    (ids : List NodeId) {id : NodeId} (initial : ∀ node, template.get? id = some node → P node) :
    ∀ node, (applyEach rule ids template).1.get? id = some node → P node := by
  have visited (current : Template) (first : NodeId)
      (before : ∀ node, current.get? id = some node → P node) :
      ∀ node, (current.applyAt rule first).1.get? id = some node → P node := by
    intro node found
    rw [get?_applyAt] at found
    split at found
    · obtain ⟨old, present, rfl⟩ := Option.map_eq_some_iff.mp found
      exact closed old (before old present)
    · exact before node found
  induction ids generalizing template with
  | nil => exact initial
  | cons first ids ih =>
    rw [applyEach_cons]
    split
    · exact visited template first initial
    · exact ih (visited template first initial)

/-- Nodes that a rule neither changes nor complains about are traversed without effect. -/
theorem applyEach_eq_self {ids : List NodeId}
    (fixed : ∀ id ∈ ids, ∀ node, template.get? id = some node → node.Fixed rule) :
    applyEach rule ids template = (template, none) := by
  induction ids with
  | nil => rfl
  | cons id ids ih =>
    have here := fixed id List.mem_cons_self
    have same : (template.applyAt rule id).1 = template := by
      apply ext_get?
      intro other
      rw [get?_applyAt]
      split
      · rename_i visited
        subst visited
        cases found : template.get? other with
        | none => rfl
        | some node => simp [(here node found).1]
      · rfl
    have accepted : (template.applyAt rule id).2 = none := by
      rw [failure_applyAt]
      cases found : template.get? id with
      | none => rfl
      | some node => exact (here node found).2
    rw [applyEach_cons, accepted, same]
    exact ih fun other member => fixed other (List.mem_cons_of_mem id member)

/-- If the rule has nothing more to do to a node that it has accepted once, then a traversal that
succeeds leaves nothing to do on the nodes it has visited. -/
theorem fixed_of_applyEach {ids : List NodeId}
    (settling : ∀ id node, template.get? id = some node → node.complaint rule = none →
      (node.ruled rule).Fixed rule)
    (done : applyEach rule ids template = (after, none)) :
    ∀ id ∈ ids, ∀ node, after.get? id = some node → node.Fixed rule := by
  have kept : ∀ node : Node, node.Fixed rule → (node.ruled rule).Fixed rule := by
    intro node fixed
    rwa [fixed.1]
  induction ids generalizing template with
  | nil => simp
  | cons first ids ih =>
    rw [applyEach_cons] at done
    split at done
    · cases done
    · rename_i accepted
      rw [failure_applyAt] at accepted
      have visited : ∀ node, (template.applyAt rule first).1.get? first = some node →
          node.Fixed rule := by
        intro node found
        rw [get?_applyAt, if_pos rfl] at found
        obtain ⟨old, present, rfl⟩ := Option.map_eq_some_iff.mp found
        exact settling first old present (by simpa [present] using accepted)
      have others : ∀ id node, (template.applyAt rule first).1.get? id = some node →
          node.complaint rule = none → (node.ruled rule).Fixed rule := by
        intro id node found quiet
        by_cases same : id = first
        · subst same
          exact kept node (visited node found)
        · rw [get?_applyAt, if_neg same] at found
          exact settling id node found quiet
      intro id member node found
      rcases List.mem_cons.mp member with same | member
      · subst same
        have persistent := closed_applyEach (P := fun node => node.Fixed rule) kept ids visited
        rw [done] at persistent
        exact persistent node found
      · exact ih others done id member node found

end Template

end LayoutMarkup
