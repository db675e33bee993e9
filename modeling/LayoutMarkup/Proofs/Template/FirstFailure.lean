import LayoutMarkup.Proofs.Template.Traversal
import Mathlib.Data.List.Nodup

/-! Where a traversal by a rule ends. It fails at the first node that the rule complains about; the
nodes up to this one have got the heads that the rule makes of their own, and all others are as they
were. -/

namespace LayoutMarkup

namespace Template

variable {ε : Type} {rule : Head.Rule ε} {template after : Template} {ids : List NodeId} {failure : ε}

/-- A traversal without a failure changes the nodes on the list and no others. -/
theorem get?_of_applyEach (once : ids.Nodup) (done : applyEach rule ids template = (after, none))
    (id : NodeId) :
    after.get? id =
      if id ∈ ids then (template.get? id).map (Node.ruled rule) else template.get? id := by
  by_cases member : id ∈ ids
  · rw [if_pos member, (get?_applyEach_of_mem once done member).1]
  · have kept := get?_applyEach_of_not_mem rule template ids member
    rw [done] at kept
    rw [if_neg member, kept]

/-- A failing traversal goes without a failure up to some id, and then fails there. -/
theorem exists_split_of_applyEach (failed : applyEach rule ids template = (after, some failure)) :
    ∃ before id later middle, ids = before ++ id :: later ∧
      applyEach rule before template = (middle, none) ∧
      middle.applyAt rule id = (after, some failure) := by
  induction ids generalizing template with
  | nil => cases failed
  | cons first ids ih =>
    rw [applyEach_cons] at failed
    cases visited : (template.applyAt rule first).2 with
    | some own =>
      simp only [visited] at failed
      have here : template.applyAt rule first = ((template.applyAt rule first).1, some own) :=
        Prod.ext rfl visited
      exact ⟨[], first, ids, template, rfl, rfl, here.trans failed⟩
    | none =>
      simp only [visited] at failed
      obtain ⟨before, id, later, middle, rfl, done, here⟩ := ih failed
      refine ⟨first :: before, id, later, middle, rfl, ?_, here⟩
      rw [applyEach_cons, visited]
      exact done

/-- A failure is the complaint about the first node that there is one about. -/
theorem exists_first_of_applyEach (once : ids.Nodup)
    (failed : applyEach rule ids template = (after, some failure)) :
    ∃ before id later, ids = before ++ id :: later ∧
      (∀ other ∈ before, (template.get? other).bind (Node.complaint rule) = none) ∧
      (template.get? id).bind (Node.complaint rule) = some failure ∧
      (∀ other, after.get? other = if other ∈ before ∨ other = id
        then (template.get? other).map (Node.ruled rule) else template.get? other) := by
  obtain ⟨before, id, later, middle, rfl, done, here⟩ := exists_split_of_applyEach failed
  have first : before.Nodup := (List.nodup_append.mp once).1
  have fresh : id ∉ before := fun member =>
    (List.nodup_append.mp once).2.2 id member id List.mem_cons_self rfl
  have reached := get?_of_applyEach first done
  refine ⟨before, id, later, rfl, ?_, ?_, ?_⟩
  · intro other member
    exact (get?_applyEach_of_mem first done member).2
  · have complained := failure_applyAt rule middle id
    rw [here, reached id, if_neg fresh] at complained
    exact complained.symm
  · intro other
    have changed := get?_applyAt rule middle id other
    rw [here, reached other] at changed
    rw [changed]
    by_cases same : other = id
    · rw [if_pos same, if_neg (same ▸ fresh), if_pos (Or.inr same)]
    · simp [same]

/-- A traversal succeeds exactly when the rule complains about none of the nodes as they are
beforehand. -/
theorem applyEach_accepts_iff (once : ids.Nodup) :
    (applyEach rule ids template).2 = none ↔
      ∀ id ∈ ids, (template.get? id).bind (Node.complaint rule) = none := by
  constructor
  · intro accepted id member
    exact (get?_applyEach_of_mem once (Prod.ext rfl accepted) member).2
  · intro quiet
    cases failed : (applyEach rule ids template).2 with
    | none => rfl
    | some failure =>
      obtain ⟨before, id, later, rfl, -, complained, -⟩ :=
        exists_first_of_applyEach once (Prod.ext rfl failed)
      rw [quiet id (by simp)] at complained
      cases complained

/-- A traversal that succeeds has applied the rule to each of the nodes, and the rule has not
complained about any. -/
theorem applyEach_eq_iff (once : ids.Nodup) :
    applyEach rule ids template = (after, none) ↔
      (∀ id ∈ ids, (template.get? id).bind (Node.complaint rule) = none) ∧
      ∀ id, after.get? id =
        if id ∈ ids then (template.get? id).map (Node.ruled rule) else template.get? id := by
  rw [← applyEach_accepts_iff once]
  constructor
  · intro done
    exact ⟨congrArg Prod.snd done, get?_of_applyEach once done⟩
  · intro ⟨accepted, reached⟩
    have same : (applyEach rule ids template).1 = after := by
      apply ext_get?
      intro id
      rw [reached id, get?_of_applyEach once (Prod.ext rfl accepted) id]
    exact Prod.ext same accepted

/-- What a rule keeps of every node, a traversal keeps of the node at every id. -/
theorem map_get?_applyEach {α : Type} {view : Node → α}
    (kept : ∀ node : Node, view (node.ruled rule) = view node) (ids : List NodeId) (id : NodeId) :
    ((applyEach rule ids template).1.get? id).map view = (template.get? id).map view := by
  have visited (current : Template) (first : NodeId) :
      ((current.applyAt rule first).1.get? id).map view = (current.get? id).map view := by
    rw [get?_applyAt]
    split
    · rw [Option.map_map]
      congr 1
      exact funext kept
    · rfl
  induction ids generalizing template with
  | nil => rfl
  | cons first ids ih =>
    rw [applyEach_cons]
    split
    · exact visited template first
    · rw [ih, visited]

end Template

end LayoutMarkup
