import LayoutMarkup.Proofs.Template.FirstFailure

/-! Two rules in one traversal. Since a rule concerns one node at a time, two traversals that succeed
one after the other do what a single one does with both rules at each node. -/

namespace LayoutMarkup

variable {ε : Type} {first second : Head.Rule ε}

/-- One rule after another on the same head, unless the first fails. -/
def Head.Rule.andThen (first second : Head.Rule ε) : Head.Rule ε := fun head =>
  match first head with
  | (head, some failure) => (head, some failure)
  | (head, none) => second head

namespace Node

theorem complaint_andThen (node : Node) :
    node.complaint (first.andThen second) = none ↔
      node.complaint first = none ∧ (node.ruled first).complaint second = none := by
  cases node with
  | leaf content => simp [complaint, ruled, mapHead]
  | branch head children =>
    simp only [complaint, ruled, mapHead, Head.Rule.andThen]
    rcases first head with ⟨next, _ | failure⟩ <;> simp

theorem ruled_andThen {node : Node} (accepted : node.complaint first = none) :
    node.ruled (first.andThen second) = (node.ruled first).ruled second := by
  cases node with
  | leaf content => rfl
  | branch head children =>
    simp only [complaint] at accepted
    simp only [ruled, mapHead, Head.Rule.andThen]
    split
    · rename_i failed
      simp [failed] at accepted
    · rename_i changed
      rw [changed]

end Node

/-- A traversal by two rules succeeds exactly when traversals by each of them do, one after the other,
and then with the same outcome. -/
theorem Template.applyEach_andThen_iff {ids : List NodeId} (once : ids.Nodup)
    {template after : Template} :
    applyEach (first.andThen second) ids template = (after, none) ↔
      ∃ middle, applyEach first ids template = (middle, none) ∧
        applyEach second ids middle = (after, none) := by
  have quiet (node : Option Node) :
      node.bind (Node.complaint (first.andThen second)) = none ↔
        node.bind (Node.complaint first) = none ∧
          (node.map (Node.ruled first)).bind (Node.complaint second) = none := by
    cases node with
    | none => simp
    | some node => exact Node.complaint_andThen node
  have both (node : Option Node) (accepted : node.bind (Node.complaint first) = none) :
      node.map (Node.ruled (first.andThen second)) =
        (node.map (Node.ruled first)).map (Node.ruled second) := by
    cases node with
    | none => rfl
    | some node => exact congrArg some (Node.ruled_andThen accepted)
  constructor
  · intro done
    obtain ⟨accepted, reached⟩ := (applyEach_eq_iff once).mp done
    have begun : (applyEach first ids template).2 = none :=
      (applyEach_accepts_iff once).mpr fun id member => ((quiet _).mp (accepted id member)).1
    have between := get?_of_applyEach once (Prod.ext rfl begun)
    refine ⟨_, Prod.ext rfl begun, (applyEach_eq_iff once).mpr ⟨?_, ?_⟩⟩
    · intro id member
      rw [between id, if_pos member]
      exact ((quiet _).mp (accepted id member)).2
    · intro id
      rw [reached id, between id]
      split
      · rename_i member
        exact both _ ((quiet _).mp (accepted id member)).1
      · rfl
  · intro ⟨middle, begun, finished⟩
    -- the second traversal meets at each id what the first rule has made of the node there
    obtain ⟨accepted, between⟩ := (applyEach_eq_iff once).mp begun
    obtain ⟨acceptedThen, reached⟩ := (applyEach_eq_iff once).mp finished
    refine (applyEach_eq_iff once).mpr ⟨?_, ?_⟩
    · intro id member
      have later := acceptedThen id member
      rw [between id, if_pos member] at later
      exact (quiet _).mpr ⟨accepted id member, later⟩
    · intro id
      rw [reached id, between id]
      split
      · rename_i member
        exact (both _ (accepted id member)).symm
      · rfl

end LayoutMarkup
