import LayoutMarkup.Proofs.Template.Walks
import Mathlib.Logic.Relation

/-! Templates without cycles. Nodes may be shared, detached or missing, as long as no node that can be
reached comes again below itself. Every path from the root then ends within the size of the store, and
the order of all nodes lists exactly those that can be reached. -/

namespace LayoutMarkup

namespace Template

/-- A path of children leads from a node to another, or to itself. -/
def Reaches (template : Template) : NodeId → NodeId → Prop :=
  Relation.ReflTransGen fun id child => child ∈ template.children id

/-- No node that can be reached from the root comes again below one of its children. -/
def IsAcyclic (template : Template) : Prop :=
  ∀ id, template.Reaches root id → ∀ child ∈ template.children id, ¬ template.Reaches child id

theorem reaches_congr {first second : Template}
    (same : ∀ id, first.children id = second.children id) : first.Reaches = second.Reaches := by
  unfold Reaches
  simp only [same]

variable {template : Template} {trail : List NodeId} {depth : Nat} {id child : NodeId}

/-- Different nodes above a node, in any order. -/
structure IsTrail (template : Template) (trail : List NodeId) (id : NodeId) : Prop where
  distinct : trail.Nodup
  above : ∀ earlier ∈ trail, ∃ child ∈ template.children earlier, template.Reaches child id

theorem IsTrail.length_le (walked : template.IsTrail trail id) : trail.length ≤ template.size := by
  have stored : trail ⊆ List.range template.size := by
    intro earlier member
    obtain ⟨child, below, -⟩ := walked.above earlier member
    exact List.mem_range.mpr (lt_size_of_mem_children below)
  simpa using walked.distinct.length_le_of_subset stored

/-- Without a cycle, a step to a child leaves a node that has not been left before. -/
theorem IsTrail.cons (acyclic : template.IsAcyclic) (reached : template.Reaches root id)
    (walked : template.IsTrail trail id) (member : child ∈ template.children id) :
    template.IsTrail (id :: trail) child := by
  constructor
  · refine List.nodup_cons.mpr ⟨fun again => ?_, walked.distinct⟩
    obtain ⟨other, below, back⟩ := walked.above id again
    exact acyclic id reached other below back
  · intro earlier left
    rcases List.mem_cons.mp left with rfl | before
    · exact ⟨child, member, .refl⟩
    · obtain ⟨other, below, path⟩ := walked.above earlier before
      exact ⟨other, below, path.tail member⟩

/-- A trail cannot be longer than the store, and this bounds how far a path can go on. -/
theorem endsWithin_of_isTrail (acyclic : template.IsAcyclic) (reached : template.Reaches root id)
    (walked : template.IsTrail trail id) (room : template.size < trail.length + depth) :
    template.EndsWithin depth id := by
  induction depth generalizing trail id with
  | zero => exact absurd walked.length_le (Nat.not_le.mpr room)
  | succ depth ih =>
    intro child member
    refine ih (reached.tail member) (walked.cons acyclic reached member) ?_
    rw [List.length_cons]
    omega

theorem endsWithin_of_isAcyclic (acyclic : template.IsAcyclic) :
    template.EndsWithin (template.size + 1) root :=
  endsWithin_of_isTrail acyclic .refl ⟨List.nodup_nil, by simp⟩ (by simp)

theorem EndsWithin.reached {other : NodeId} (ends : template.EndsWithin depth id)
    (path : template.Reaches id other) : template.EndsWithin depth other := by
  induction path with
  | refl => exact ends
  | tail _ member ih => exact ih.child member

/-- A path that comes back to its start does not end. -/
theorem EndsWithin.no_return (ends : template.EndsWithin depth id)
    (member : child ∈ template.children id) : ¬ template.Reaches child id := by
  induction depth with
  | zero => exact ends.elim
  | succ depth ih =>
    intro back
    exact ih ((ends child member).reached back) back

theorem isAcyclic_of_endsWithin (ends : template.EndsWithin depth root) : template.IsAcyclic :=
  fun _ reached _ member => (ends.reached reached).no_return member

/-- A template is acyclic exactly if the paths from its root end within the size of its store. -/
theorem isAcyclic_iff : template.IsAcyclic ↔ template.EndsWithin (template.size + 1) root :=
  ⟨endsWithin_of_isAcyclic, isAcyclic_of_endsWithin⟩

instance decidableEndsWithin (template : Template) :
    (depth : Nat) → (id : NodeId) → Decidable (template.EndsWithin depth id)
  | 0, _ => .isFalse fun ends => ends
  | depth + 1, id =>
    have := decidableEndsWithin template depth
    inferInstanceAs (Decidable (∀ child ∈ template.children id, template.EndsWithin depth child))

instance (template : Template) : Decidable template.IsAcyclic := decidable_of_iff _ isAcyclic_iff.symm

theorem mem_preorder_iff {other : NodeId} (ends : template.EndsWithin depth id) :
    other ∈ template.preorder depth id ↔ template.Reaches id other := by
  induction depth generalizing id with
  | zero => exact ends.elim
  | succ depth ih =>
    have below : (∃ child ∈ template.children id, other ∈ template.preorder depth child) ↔
        ∃ child ∈ template.children id, template.Reaches child other :=
      exists_congr fun child => and_congr_right fun member => ih (ends child member)
    rw [preorder, List.mem_cons, List.mem_flatMap, below, Reaches, Relation.ReflTransGen.cases_head_iff]
    exact or_congr_left eq_comm

/-- What stands in the order of all nodes can be reached, and all that can be reached stands there. -/
theorem mem_descendants_iff (acyclic : template.IsAcyclic) :
    id ∈ template.descendants ↔ template.Reaches root id :=
  mem_preorder_iff (endsWithin_of_isAcyclic acyclic)

theorem preorder_eq_of_le {bound : Nat} (ends : template.EndsWithin depth id) (lower : depth ≤ bound) :
    template.preorder bound id = template.preorder depth id := by
  induction lower with
  | refl => rfl
  | step lower ih => rw [preorder_succ (ends.mono lower), ih]

/-- Looked for to any depth at which all paths end, the order of all nodes is the same. -/
theorem descendants_eq_preorder (ends : template.EndsWithin depth root) :
    template.descendants = template.preorder depth root := by
  have bounded := endsWithin_of_isAcyclic (isAcyclic_of_endsWithin ends)
  rw [descendants, ← preorder_eq_of_le bounded (Nat.le_max_left _ depth),
    preorder_eq_of_le ends (Nat.le_max_right _ _)]

end Template

end LayoutMarkup
