import LayoutMarkup.Layout.Build
import LayoutMarkup.Proofs.Layout.AttributeNames
import LayoutMarkup.Proofs.Template.Traversal

/-! The passes of a build. The conversion concerns elements alone and keeps their tags; the making of
components never fails, so a build fails exactly when its conversion does. -/

namespace LayoutMarkup

/-- A pass, failing or not, leaves the order of all nodes as it was. -/
theorem Pass.descendants_run (pass : Pass) (template : Template) :
    (pass.run template).1.descendants = template.descendants :=
  Template.descendants_applyEach pass.rule template template.descendants

namespace Settings

variable {settings : Settings} {template after : Template}

/-- An element after a conversion comes from the element that was there before. -/
theorem element?_of_conversion (once : template.descendants.Nodup)
    (done : settings.conversion.run template = (after, none)) {id : NodeId}
    (reached : id ∈ template.descendants) {converted : Element}
    (found : after.element? id = some converted) :
    ∃ element, template.element? id = some element ∧ converted.tag = element.tag ∧
      (settings.converts element.tag = true → settings.convert element = (converted, none)) := by
  obtain ⟨changed, accepted⟩ := Template.get?_applyEach_of_mem once done reached
  obtain ⟨children, present⟩ := Template.element?_eq_some_iff.mp found
  rw [changed] at present
  obtain ⟨node, before, after⟩ := Option.map_eq_some_iff.mp present
  rw [before, Option.bind_some] at accepted
  cases node with
  | leaf content => cases after
  | branch head below =>
    cases head with
    | program span => cases after
    | block block => cases after
    | element element =>
      refine ⟨element, Template.element?_eq_some_iff.mpr ⟨below, before⟩, ?_⟩
      simp only [Node.ruled, Node.mapHead, Node.complaint, Settings.conversion, conversionRule]
        at after accepted
      by_cases matched : settings.converts element.tag = true
      · simp only [matched, if_true, Node.branch.injEq, Head.element.injEq] at after accepted
        exact ⟨after.1 ▸ tag_convert settings element, fun _ => Prod.ext after.1 accepted⟩
      · simp only [matched, Bool.false_eq_true, if_false, Node.branch.injEq, Head.element.injEq]
          at after
        exact ⟨congrArg Element.tag after.1.symm, fun other => absurd other matched⟩

theorem complaint_component (node : Node) : node.complaint componentRule = none := by
  cases node with
  | leaf content => rfl
  | branch head children => cases head <;> rfl

theorem component_accepted (ids : List NodeId) (template : Template) :
    (Template.applyEach componentRule ids template).2 = none := by
  induction ids generalizing template with
  | nil => rfl
  | cons id ids ih =>
    have accepted : (template.applyAt componentRule id).2 = none := by
      rw [Template.failure_applyAt]
      cases template.get? id with
      | none => rfl
      | some node => exact complaint_component node
    rw [Template.applyEach_cons, accepted]
    exact ih _

theorem accepted_of_build (accepted : (settings.build template).2 = none) :
    (settings.conversion.run template).2 = none := by
  simp only [build, passes, Pass.runAll] at accepted
  split at accepted
  · cases accepted
  · rename_i converted
    rw [converted]

/-- After a conversion with a failure, there is nothing more in a build. -/
theorem build_of_refused {error : LayoutError}
    (refused : (settings.conversion.run template).2 = some error) :
    settings.build template = settings.conversion.run template := by
  have run : settings.conversion.run template =
      ((settings.conversion.run template).1, some error) := Prod.ext rfl refused
  simp only [build, passes, Pass.runAll]
  rw [run]

/-- After a conversion without a failure, a build makes components of what came out. -/
theorem build_of_accepted (accepted : (settings.conversion.run template).2 = none) :
    settings.build template =
      ((Pass.component.run (settings.conversion.run template).1).1, none) := by
  have component : (Pass.component.run (settings.conversion.run template).1).2 = none :=
    component_accepted _ _
  simp only [build, passes, Pass.runAll]
  split
  · rename_i failed
    simp [failed] at accepted
  · rename_i converted
    simp only [converted] at component ⊢
    split
    · rename_i failed
      simp [failed] at component
    · rename_i made
      rw [made]

end Settings

end LayoutMarkup
