import LayoutMarkup.Proofs.Layout.Passes
import LayoutMarkup.Proofs.Template.Storage
import Mathlib.Data.List.Nodup

/-! Which layout attributes a successful conversion leaves on elements. Every entry of the settings
takes one attribute of its name from each converted element, so only repetitions can be left. -/

namespace LayoutMarkup

namespace Settings

variable {settings : Settings} {template after : Template}

/-- A successful conversion leaves an attribute with a name of the settings on a converted element
exactly when the element carried that name more often than the settings list it; on elements without
repeated names it leaves none. -/
theorem mem_names_of_conversion_iff {source : String} (read : Template.read source = .ok template)
    (unreserved : "class" ∉ settings.layoutNames)
    (done : settings.conversion.run template = (after, none)) {id : NodeId} {converted : Element}
    (reached : id ∈ after.descendants) (found : after.element? id = some converted)
    (matched : settings.converts converted.tag = true) :
    ∃ element, template.element? id = some element ∧
      (∀ name ∈ settings.layoutNames, name ∈ converted.names ↔
        settings.layoutNames.count name < element.names.count name) ∧
      (element.names.Nodup → ∀ name ∈ settings.layoutNames, name ∉ converted.names) := by
  rw [Template.descendants_of_transform done] at reached
  obtain ⟨element, present, tag, convert⟩ :=
    element?_of_conversion (Template.nodup_descendants_of_read read) done reached found
  have finished := convert (tag ▸ matched)
  have left : ∀ name ∈ settings.layoutNames, name ∈ converted.names ↔
      settings.layoutNames.count name < element.names.count name := by
    intro name known
    have other : name ≠ "class" := fun same => unreserved (same ▸ known)
    have accepted : (settings.convert element).2 = none := by rw [finished]
    have count := count_names_convert accepted other
    rw [finished] at count
    rw [← List.count_pos_iff, count]
    omega
  refine ⟨element, present, left, ?_⟩
  intro distinct name known remains
  have listed : 0 < settings.layoutNames.count name := List.count_pos_iff.mpr known
  have single : element.names.count name ≤ 1 := List.nodup_iff_count_le_one.mp distinct name
  have repeated := (left name known).mp remains
  omega

/-- A box that repeats a term: one is taken by the settings that are built in, and one is left. -/
theorem mem_names_of_repeated_term :
    ∃ template after element converted,
      Template.read "<box fit sm='1' fit></box>" = .ok template ∧
      (ofProject .empty).conversion.run template = (after, none) ∧
      template.element? 1 = some element ∧ after.element? 1 = some converted ∧
      ("fit" ∈ converted.names ↔
        (ofProject .empty).layoutNames.count "fit" < element.names.count "fit") := by
  have facts : (match Template.read "<box fit sm='1' fit></box>" with
      | .ok template =>
        let outcome := (ofProject .empty).conversion.run template
        outcome.2 = none && outcome.1.descendants.contains 1 &&
          (outcome.1.element? 1).any fun converted => (ofProject .empty).converts converted.tag
      | .error _ => false) = true := by decide +kernel
  cases read : Template.read "<box fit sm='1' fit></box>" with
  | error fault => simp [read] at facts
  | ok template =>
    simp only [read, Bool.and_eq_true, decide_eq_true_eq, List.contains_eq_mem,
      Option.any_eq_true] at facts
    obtain ⟨⟨accepted, reached⟩, converted, found, matched⟩ := facts
    obtain ⟨element, present, left, -⟩ := mem_names_of_conversion_iff read (by decide +kernel)
      (Prod.ext rfl accepted) reached found matched
    exact ⟨template, _, element, converted, rfl, Prod.ext rfl accepted, present, found,
      left "fit" (by decide +kernel)⟩

/-- It is not so that a successful conversion leaves no layout attribute on a converted element. -/
theorem not_all_terms_consumed :
    ¬ ∀ (source : String) (settings : Settings) (template after : Template),
      Template.read source = .ok template → "class" ∉ settings.layoutNames →
      settings.conversion.run template = (after, none) →
      ∀ id ∈ after.descendants, ∀ element, after.element? id = some element →
        settings.converts element.tag = true → ∀ name ∈ settings.layoutNames, name ∉ element.names := by
  intro consumed
  have facts : (match Template.read "<box fit fit></box>" with
      | .ok template =>
        let outcome := (ofProject .empty).conversion.run template
        outcome.2 = none && outcome.1.descendants.contains 1 &&
          (outcome.1.element? 1).any fun converted =>
            (ofProject .empty).converts converted.tag && converted.names.contains "fit"
      | .error _ => false) = true := by decide +kernel
  cases read : Template.read "<box fit fit></box>" with
  | error fault => simp [read] at facts
  | ok template =>
    simp only [read, Bool.and_eq_true, decide_eq_true_eq, List.contains_eq_mem,
      Option.any_eq_true] at facts
    obtain ⟨⟨accepted, reached⟩, converted, found, matched, remains⟩ := facts
    exact consumed _ _ template _ read (by decide +kernel) (Prod.ext rfl accepted) 1 reached
      converted found matched "fit" (by decide +kernel) remains

end Settings

end LayoutMarkup
