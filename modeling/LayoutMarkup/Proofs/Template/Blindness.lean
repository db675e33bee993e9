import LayoutMarkup.Proofs.Template.Spans
import LayoutMarkup.Proofs.Template.Walks

/-! Blindness for spans. Printing takes no notice of spans. A transformation takes none if its rule
makes of two heads that differ in spans alone two heads that differ in spans alone: whatever it does to
one template it does to every other that has the same nodes up to spans. -/

namespace LayoutMarkup

variable {ε : Type}

/-- A rule whose outcome does not depend on spans, up to spans and to what a view on failures leaves
out. -/
def Head.Rule.IsBlind (rule : Head.Rule ε) (view : ε → ε) : Prop :=
  ∀ first second : Head, first.withoutSpans = second.withoutSpans →
    (rule first).1.withoutSpans = (rule second).1.withoutSpans ∧
      (rule first).2.map view = (rule second).2.map view

namespace Node

theorem children_withoutSpans (node : Node) : node.withoutSpans.children = node.children := by
  cases node <;> rfl

variable {rule : Head.Rule ε} {view : ε → ε} {first second : Node}

theorem ruled_of_blind (blind : rule.IsBlind view) (same : first.withoutSpans = second.withoutSpans) :
    (first.ruled rule).withoutSpans = (second.ruled rule).withoutSpans ∧
      (first.complaint rule).map view = (second.complaint rule).map view := by
  cases first with
  | leaf content =>
    cases second with
    | leaf other => exact ⟨same, rfl⟩
    | branch head ids => cases same
  | branch head ids =>
    cases second with
    | leaf other => cases same
    | branch other others =>
      obtain ⟨heads, rfl⟩ := Node.branch.inj same
      obtain ⟨result, failure⟩ := blind head other heads
      exact ⟨congrArg (Node.branch · ids) result, failure⟩

end Node

namespace Template

theorem get?_withoutSpans (template : Template) (id : NodeId) :
    template.withoutSpans.get? id = (template.get? id).map Node.withoutSpans := by
  simp [get?, withoutSpans]

theorem size_withoutSpans (template : Template) : template.withoutSpans.size = template.size := by
  simp [size, withoutSpans]

theorem children_withoutSpans (template : Template) (id : NodeId) :
    template.withoutSpans.children id = template.children id := by
  simp only [children, get?_withoutSpans]
  cases template.get? id with
  | none => rfl
  | some node => exact node.children_withoutSpans

theorem descendants_withoutSpans (template : Template) :
    template.withoutSpans.descendants = template.descendants := by
  rw [descendants, size_withoutSpans]
  exact preorder_congr template.children_withoutSpans _ root

theorem writeNode_withoutSpans (template : Template) (depth : Nat) (id : NodeId) :
    template.withoutSpans.writeNode depth id = template.writeNode depth id := by
  induction depth generalizing id with
  | zero => rfl
  | succ depth ih =>
    have below : template.withoutSpans.writeNode depth = template.writeNode depth := funext ih
    rw [writeNode, writeNode, get?_withoutSpans, below]
    cases template.get? id with
    | none => rfl
    | some node =>
      cases node with
      | leaf content => exact congrArg some content.write_withoutSpans
      | branch head ids =>
        have hidden : head.withoutSpans.hidesChildren = head.hidesChildren := by cases head <;> rfl
        simp only [Option.map_some, Node.withoutSpans, hidden, head.write_withoutSpans]

/-- A template is printed without a look at its spans. -/
theorem print_withoutSpans (template : Template) : template.withoutSpans.print = template.print := by
  rw [print, size_withoutSpans, writeNode_withoutSpans, print]

theorem exists_mapM_of_forall {α β : Type} {f : α → Option β} {items : List α}
    (each : ∀ item ∈ items, ∃ result, f item = some result) :
    ∃ results, items.mapM f = some results := by
  induction items with
  | nil => exact ⟨[], rfl⟩
  | cons item items ih =>
    obtain ⟨result, here⟩ := each item List.mem_cons_self
    obtain ⟨results, others⟩ := ih fun other member => each other (List.mem_cons_of_mem item member)
    exact ⟨result :: results, by simp [List.mapM_cons, here, others]⟩

/-- A node can be written if every path down from it ends and has a node at each id. -/
theorem exists_writeNode {template : Template} {depth : Nat} {id : NodeId}
    (ends : template.EndsWithin depth id)
    (present : ∀ other ∈ template.preorder depth id, ∃ node, template.get? other = some node) :
    ∃ text, template.writeNode depth id = some text := by
  induction depth generalizing id with
  | zero => exact ends.elim
  | succ depth ih =>
    obtain ⟨node, found⟩ := present id List.mem_cons_self
    cases node with
    | leaf content => exact ⟨content.write, by simp [writeNode, found]⟩
    | branch head ids =>
      have children : template.children id = ids := children_of_get? found
      obtain ⟨texts, written⟩ : ∃ texts, ids.mapM (template.writeNode depth) = some texts := by
        apply exists_mapM_of_forall
        intro child member
        rw [← children] at member
        refine ih (ends child member) fun other inside => ?_
        exact present other (List.mem_cons_of_mem _ (List.mem_flatMap.mpr ⟨child, member, inside⟩))
      simp only [writeNode, found, written, Option.map_some]
      split
      · exact ⟨_, rfl⟩
      · exact ⟨_, rfl⟩

/-- A tree can be printed. -/
theorem exists_print_of_isTree {template : Template} (tree : template.IsTree) :
    ∃ text, template.print = some text := by
  obtain ⟨text, written⟩ := exists_writeNode tree.ends.succ fun id reached => by
    have bound : id < template.size := List.mem_range.mp (tree.order.mem_iff.mp reached)
    exact ⟨_, Array.getElem?_eq_getElem bound⟩
  exact ⟨_, by rw [print, written, Option.map_some]⟩

/-- Templates are equal up to spans when their nodes are. -/
theorem withoutSpans_eq_iff {first second : Template} :
    first.withoutSpans = second.withoutSpans ↔
      ∀ id, (first.get? id).map Node.withoutSpans = (second.get? id).map Node.withoutSpans := by
  simp only [← get?_withoutSpans]
  constructor
  · intro same id
    rw [same]
  · exact ext_get?

section

variable {rule : Head.Rule ε} {view : ε → ε} {first second : Template} (blind : rule.IsBlind view)
  (same : first.withoutSpans = second.withoutSpans)

include blind same

/-- Applied at one id of two templates that are equal up to spans, a blind rule has the same outcome. -/
theorem applyAt_of_blind (id : NodeId) :
    (first.applyAt rule id).1.withoutSpans = (second.applyAt rule id).1.withoutSpans ∧
      (first.applyAt rule id).2.map view = (second.applyAt rule id).2.map view := by
  rw [withoutSpans_eq_iff] at same ⊢
  have here (other : NodeId) :
      ((first.get? other).map (Node.ruled rule)).map Node.withoutSpans =
          ((second.get? other).map (Node.ruled rule)).map Node.withoutSpans ∧
        ((first.get? other).bind (Node.complaint rule)).map view =
          ((second.get? other).bind (Node.complaint rule)).map view := by
    have alike := same other
    cases one : first.get? other with
    | none =>
      rw [one, Option.map_none, eq_comm, Option.map_eq_none_iff] at alike
      rw [alike]
      exact ⟨rfl, rfl⟩
    | some node =>
      rw [one, Option.map_some, eq_comm, Option.map_eq_some_iff] at alike
      obtain ⟨peer, two, alike⟩ := alike
      rw [two]
      obtain ⟨ruled, complaint⟩ := Node.ruled_of_blind blind alike
      exact ⟨congrArg some ruled.symm, complaint.symm⟩
  refine ⟨fun other => ?_, ?_⟩
  · rw [get?_applyAt, get?_applyAt]
    split
    · exact (here other).1
    · exact same other
  · rw [failure_applyAt, failure_applyAt]
    exact (here id).2

/-- A traversal by a blind rule, failing or not, has the same outcome on both. -/
theorem applyEach_of_blind (ids : List NodeId) :
    (applyEach rule ids first).1.withoutSpans = (applyEach rule ids second).1.withoutSpans ∧
      (applyEach rule ids first).2.map view = (applyEach rule ids second).2.map view := by
  induction ids generalizing first second with
  | nil => exact ⟨same, rfl⟩
  | cons id ids ih =>
    obtain ⟨left, failure⟩ := applyAt_of_blind blind same id
    rw [applyEach_cons, applyEach_cons]
    cases one : (first.applyAt rule id).2 with
    | none =>
      rw [one, Option.map_none, eq_comm, Option.map_eq_none_iff] at failure
      rw [failure]
      exact ih left
    | some own =>
      rw [one, Option.map_some, eq_comm, Option.map_eq_some_iff] at failure
      obtain ⟨other, two, alike⟩ := failure
      rw [two]
      exact ⟨left, congrArg some alike.symm⟩

theorem transform_of_blind :
    (first.transform rule).1.withoutSpans = (second.transform rule).1.withoutSpans ∧
      (first.transform rule).2.map view = (second.transform rule).2.map view := by
  have order : first.descendants = second.descendants := by
    rw [← first.descendants_withoutSpans, same, second.descendants_withoutSpans]
  rw [transform, transform, order]
  exact applyEach_of_blind blind same _

end

end Template

end LayoutMarkup
