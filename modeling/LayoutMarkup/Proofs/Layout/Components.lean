import LayoutMarkup.Proofs.Layout.Changes
import LayoutMarkup.Proofs.Layout.Idempotence
import LayoutMarkup.Proofs.Layout.Pointwise
import LayoutMarkup.Proofs.Template.Acyclic

/-! The making of components on any template without cycles. A shared node is met several times, but
what was made of it is left alone from then on, so that every component that can be reached is made
exactly once and nothing else changes. -/

namespace LayoutMarkup

namespace Template

variable {ε : Type} {rule : Head.Rule ε}

/-- A rule that has nothing to complain about, and nothing more to do to what it has made, gives each
node on a list the head of its own, however often the node stands there. -/
theorem get?_applyEach_of_settling (settling : ∀ node : Node, (node.ruled rule).Fixed rule)
    (quiet : ∀ node : Node, node.complaint rule = none) (ids : List NodeId) (template : Template)
    (id : NodeId) :
    (applyEach rule ids template).1.get? id =
      if id ∈ ids then (template.get? id).map (Node.ruled rule) else template.get? id := by
  induction ids generalizing template with
  | nil => rfl
  | cons first ids ih =>
    have accepted : (template.applyAt rule first).2 = none := by
      rw [failure_applyAt]
      cases template.get? first with
      | none => rfl
      | some node => exact quiet node
    rw [applyEach_cons, accepted, ih, get?_applyAt]
    by_cases same : id = first
    · subst id
      have again : ((template.get? first).map (Node.ruled rule)).map (Node.ruled rule) =
          (template.get? first).map (Node.ruled rule) := by
        rw [Option.map_map]
        congr 1
        exact funext fun node => (settling node).1
      rw [if_pos rfl, if_pos List.mem_cons_self, again, ite_self]
    · simp [same]

/-- Where all paths down end, a walk that applies a rule is the transformation by the rule. -/
theorem walk_ruleVisitor {template : Template} (acyclic : template.IsAcyclic) (rule : Head.Rule ε)
    {fuel : Nat} (enough : template.descendants.length ≤ fuel) :
    template.walk (ruleVisitor rule) () fuel =
      some (((template.transform rule).1, ()), (template.transform rule).2) := by
  have ends : ∀ id ∈ [root], template.EndsWithin (template.size + 1) id := by
    simpa using endsWithin_of_isAcyclic acyclic
  have visits : ([root].flatMap (template.preorder (template.size + 1))).length ≤ fuel := by
    simpa [descendants] using enough
  simpa [walk, transform, descendants] using walkFrom_ruleVisitor rule ends visits

end Template

variable {template : Template}

namespace Node

theorem fixed_of_not_isComponent {element : Element} {children : List NodeId}
    (plain : element.isComponent = false) :
    assembled (.branch (.element element) children) = .branch (.element element) children := by
  rw [assembled, if_neg (by simp [plain])]

/-- What comes out is no element that calls for a component. -/
theorem not_isComponent_of_assembled {node : Node} {element : Element} {children : List NodeId}
    (made : node.assembled = .branch (.element element) children) : element.isComponent = false := by
  have settled := (Settings.fixed_component node).1
  rw [ruled_component, ruled_component, made, assembled] at settled
  by_contra component
  rw [if_pos (by simpa using component)] at settled
  cases settled

end Node

namespace Template

/-- Components are made of the nodes that can be reached. -/
theorem get?_component (acyclic : template.IsAcyclic) (id : NodeId) :
    (template.Reaches root id →
      (Pass.component.run template).1.get? id = (template.get? id).map Node.assembled) ∧
    (¬ template.Reaches root id → (Pass.component.run template).1.get? id = template.get? id) := by
  have changed : (Pass.component.run template).1.get? id = _ :=
    get?_applyEach_of_settling Settings.fixed_component Settings.complaint_component
      template.descendants template id
  rw [changed]
  refine ⟨fun reached => ?_, fun unreached => ?_⟩
  · rw [if_pos ((mem_descendants_iff acyclic).mpr reached)]
    congr 1
    exact funext Node.ruled_component
  · rw [if_neg fun member => unreached ((mem_descendants_iff acyclic).mp member)]

theorem get?_of_not_isComponent (acyclic : template.IsAcyclic) {id : NodeId}
    (plain : ∀ element, template.element? id = some element → element.isComponent = false) :
    (Pass.component.run template).1.get? id = template.get? id := by
  by_cases reached : template.Reaches root id
  · rw [(get?_component acyclic id).1 reached]
    cases found : template.get? id with
    | none => rfl
    | some node =>
      cases node with
      | leaf content => rfl
      | branch head children =>
        cases head with
        | program span => rfl
        | block block => rfl
        | element element =>
          have named := plain element (element?_eq_some_iff.mpr ⟨children, found⟩)
          rw [Option.map_some, Node.fixed_of_not_isComponent named]
  · exact (get?_component acyclic id).2 reached

/-- On any template without cycles, with shared, detached and missing nodes or none, the making of
components is a walk that ends without a failure. It makes a component of each node that can be reached
and calls for one, and changes nothing else; it keeps the children of all nodes and their order. None
that calls for a component is left to be reached, so that doing it again changes nothing. -/
theorem components_are_made (acyclic : template.IsAcyclic) :
    let after := (Pass.component.run template).1
    Pass.component.run template = (after, none) ∧
    (∀ fuel, template.descendants.length ≤ fuel →
      template.walk (ruleVisitor componentRule) () fuel = some ((after, ()), none)) ∧
    (∀ id, after.Reaches root id → ∀ element, after.element? id = some element →
      element.isComponent = false) ∧
    (∀ id, template.Reaches root id → after.get? id = (template.get? id).map Node.assembled) ∧
    (∀ id, ¬ template.Reaches root id → after.get? id = template.get? id) ∧
    (∀ id, (∀ element, template.element? id = some element → element.isComponent = false) →
      after.get? id = template.get? id) ∧
    (∀ id, after.children id = template.children id) ∧
    after.size = template.size ∧ after.descendants = template.descendants ∧
    Pass.component.run after = (after, none) := by
  intro after
  have same : after.SameShape template := Pass.component.sameShape_run template
  have accepted : (Pass.component.run template).2 = none := Settings.component_accepted _ _
  refine ⟨Prod.ext rfl accepted, ?_, ?_, fun id => (get?_component acyclic id).1,
    fun id => (get?_component acyclic id).2, fun id => get?_of_not_isComponent acyclic, same.children,
    same.size, same.descendants, ?_⟩
  · intro fuel enough
    exact (walk_ruleVisitor acyclic componentRule enough).trans (by rw [← accepted]; rfl)
  · intro id reached element found
    obtain ⟨children, present⟩ := element?_eq_some_iff.mp found
    rw [reaches_congr same.children] at reached
    rw [(get?_component acyclic id).1 reached] at present
    obtain ⟨node, -, made⟩ := Option.map_eq_some_iff.mp present
    exact Node.not_isComponent_of_assembled made
  · apply applyEach_eq_self
    intro id member node found
    rw [same.descendants, mem_descendants_iff acyclic] at member
    rw [(get?_component acyclic id).1 member] at found
    obtain ⟨before, -, rfl⟩ := Option.map_eq_some_iff.mp found
    rw [← Node.ruled_component]
    exact Settings.fixed_component before

/-- A container with a responsive grid in it, listed by the root and by another element, beside a
container that nobody lists and an id that does not exist. -/
theorem components_are_made_of_shared_container :
    let container : Node := .branch (.element ⟨"container", [], false, .nowhere⟩) []
    let grid : Node := .branch (.element ⟨"grid", [.made "responsive" ""], false, .nowhere⟩) []
    let other : Node := .branch (.element ⟨"p", [], false, .nowhere⟩) []
    let stored := ((((empty .nowhere).alloc container).alloc grid).alloc other).alloc container
    let template := ((((stored.append 1 2).append 0 1).append 0 3).append 3 1).append 0 9
    let after := (Pass.component.run template).1
    template.IsAcyclic ∧ template.descendants = [0, 1, 2, 3, 1, 2, 9] ∧
      template.walk (ruleVisitor componentRule) () 7 = some ((after, ()), none) ∧
      after.get? 2 = (template.get? 2).map Node.assembled ∧
      (after.get? 2).map Node.kind = some "BlockStatement" ∧
      after.get? 4 = template.get? 4 ∧ after.descendants = template.descendants ∧
      Pass.component.run after = (after, none) := by
  intro container grid other stored template after
  have acyclic : template.IsAcyclic := by decide +kernel
  have order : template.descendants = [0, 1, 2, 3, 1, 2, 9] := by decide +kernel
  obtain ⟨-, walked, -, made, kept, -, -, -, same, again⟩ := components_are_made acyclic
  have reached : template.Reaches root 2 := (mem_descendants_iff acyclic).mp (by rw [order]; decide)
  have unreached : ¬ template.Reaches root 4 := fun path => by
    have member := (mem_descendants_iff acyclic).mpr path
    rw [order] at member
    exact absurd member (by decide)
  exact ⟨acyclic, order, walked 7 (by rw [order]; decide), made 2 reached, by decide +kernel,
    kept 4 unreached, same, again⟩

end Template

end LayoutMarkup
