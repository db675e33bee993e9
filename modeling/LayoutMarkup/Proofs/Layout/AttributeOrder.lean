import LayoutMarkup.Proofs.Layout.Reference
import Mathlib.Data.List.Perm.Basic

/-! The order of attributes. The entries of the settings look attributes up by their names and take them
away by their names; on an element without repeated names it makes no difference to them where in the
list an attribute stands. -/

namespace LayoutMarkup

/-- The same element with its attributes in another order. -/
structure Element.IsReordering (element other : Element) : Prop where
  tag : other.tag = element.tag
  attributes : other.attributes.Perm element.attributes
  selfClosing : other.selfClosing = element.selfClosing
  span : other.span = element.span

namespace Element

variable {element other : Element}

theorem get?_eq_some_iff (distinct : element.names.Nodup) {name : String} {attr : Attribute} :
    element.get? name = some attr ↔ attr ∈ element.attributes ∧ attr.name = name := by
  constructor
  · intro found
    exact ⟨List.mem_of_find?_eq_some found, by simpa using List.find?_some found⟩
  · rintro ⟨member, rfl⟩
    exact (mem_iff_get? distinct).mp member

namespace IsReordering

theorem nodup_names (reordered : element.IsReordering other) (distinct : element.names.Nodup) :
    other.names.Nodup := (reordered.attributes.map Attribute.name).nodup_iff.mpr distinct

/-- A name is looked up with the same answer. -/
theorem get?_eq (reordered : element.IsReordering other) (distinct : element.names.Nodup)
    (name : String) : other.get? name = element.get? name := by
  apply Option.ext
  intro attr
  rw [get?_eq_some_iff distinct, get?_eq_some_iff (reordered.nodup_names distinct),
    reordered.attributes.mem_iff]

theorem remove (reordered : element.IsReordering other) (distinct : element.names.Nodup)
    (name : String) : (element.remove name).IsReordering (other.remove name) := by
  rw [remove_eq_without distinct, remove_eq_without (reordered.nodup_names distinct)]
  exact ⟨reordered.tag, reordered.attributes.filter _, reordered.selfClosing, reordered.span⟩

theorem existingClass_eq (reordered : element.IsReordering other) (distinct : element.names.Nodup) :
    other.existingClass = element.existingClass := by
  rw [existingClass, existingClass, reordered.get?_eq distinct]

/-- A class is written into the same attribute, or put at the end of either list. -/
theorem setClass (reordered : element.IsReordering other) (distinct : element.names.Nodup)
    (classes : String) : (element.setClass classes).IsReordering (other.setClass classes) := by
  have present : other.has "class" = element.has "class" := by
    rw [has, has, reordered.get?_eq distinct]
  unfold Element.setClass
  rw [present]
  split
  · refine ⟨reordered.tag, ?_, reordered.selfClosing, reordered.span⟩
    rw [attributes_modify distinct, attributes_modify (reordered.nodup_names distinct)]
    exact reordered.attributes.map _
  · exact ⟨reordered.tag, reordered.attributes.append_right _, reordered.selfClosing, reordered.span⟩

end IsReordering

theorem nodup_names_setClass (distinct : element.names.Nodup) (classes : String) :
    (element.setClass classes).names.Nodup := by
  rw [names_setClass]
  split
  · exact distinct
  · rename_i absent
    refine List.nodup_append.mpr ⟨distinct, List.pairwise_singleton _ _, ?_⟩
    intro name member last single same
    rw [List.mem_singleton.mp single] at same
    exact absent (same ▸ member)

end Element

/-- Conversions that differ at most in the order of the attributes they leave. -/
structure Conversion.IsReordering (first second : Conversion) : Prop where
  element : first.element.IsReordering second.element
  entries : second.entries = first.entries
  refusal : second.refusal = first.refusal

namespace Settings

variable (settings : Settings) {element other : Element}

theorem outcome_reordered (distinct : element.names.Nodup) (reordered : element.IsReordering other)
    (entry : Entry) : settings.outcome other entry = settings.outcome element entry := by
  rw [outcome, outcome, reordered.get?_eq distinct]

/-- Entry after entry takes the same attribute, or the same one refuses. -/
theorem convertEntries_reordered (distinct : element.names.Nodup)
    (reordered : element.IsReordering other) (entries : List Entry) :
    (settings.convertEntries entries element).IsReordering
      (settings.convertEntries entries other) := by
  induction entries generalizing element other with
  | nil => exact ⟨reordered, rfl, rfl⟩
  | cons entry entries ih =>
    have same := settings.outcome_reordered distinct reordered entry
    cases answered : (settings.outcome element entry).2 with
    | some refusal =>
      rw [convertEntries_refused answered, convertEntries_refused (same ▸ answered)]
      exact ⟨reordered, congrArg Prod.fst same, rfl⟩
    | none =>
      rw [convertEntries_accepted answered, convertEntries_accepted (same ▸ answered)]
      have rest := ih (nodup_names_remove distinct) (reordered.remove distinct entry.name)
      refine ⟨rest.element, ?_, rest.refusal⟩
      rw [Conversion.entries_after, Conversion.entries_after, rest.entries, same]

theorem collect_reordered (distinct : element.names.Nodup) (reordered : element.IsReordering other) :
    (settings.collect element).IsReordering (settings.collect other) := by
  have taken := settings.convertEntries_reordered distinct reordered settings.entries
  rw [collect_eq, collect_eq]
  refine ⟨taken.element, ?_, taken.refusal⟩
  rw [Conversion.entries_after, Conversion.entries_after, taken.entries,
    reordered.existingClass_eq distinct]

theorem nodup_names_collect (distinct : element.names.Nodup) :
    (settings.collect element).element.names.Nodup := by
  obtain ⟨names, -, left⟩ := exists_removeEach_collect settings element
  rw [left, Element.removeEach_eq_without distinct, Element.names_without]
  exact distinct.filter _

theorem result_reordered (distinct : element.names.Nodup) (reordered : element.IsReordering other) :
    (settings.convert element).1.IsReordering (settings.convert other).1 := by
  have collected := settings.collect_reordered distinct reordered
  simp only [convert, Conversion.result, Conversion.classes, collected.entries, collected.refusal]
  split
  · exact collected.element
  · exact collected.element.setClass (settings.nodup_names_collect distinct) _

theorem nodup_names_convert (distinct : element.names.Nodup) :
    (settings.convert element).1.names.Nodup := by
  simp only [convert, Conversion.result]
  split
  · exact settings.nodup_names_collect distinct
  · exact Element.nodup_names_setClass (settings.nodup_names_collect distinct) _

/-- On an element without repeated names the order of the attributes decides nothing: in another order
they are converted as well, or the same one is refused with the same complaint, and what is left are the
same attributes in some order, with the same one under each name, `class` among them. -/
theorem convert_of_reordered (distinct : element.names.Nodup)
    (reordered : element.IsReordering other) :
    (settings.convert other).2 = (settings.convert element).2 ∧
      (settings.convert element).1.IsReordering (settings.convert other).1 ∧
      ∀ name, (settings.convert other).1.get? name = (settings.convert element).1.get? name := by
  have result := settings.result_reordered distinct reordered
  refine ⟨?_, result, result.get?_eq (settings.nodup_names_convert distinct)⟩
  have collected := settings.collect_reordered distinct reordered
  simp only [convert, collected.refusal, reordered.tag, reordered.span]

/-- A box with its term in front of its breakpoint gets the classes that it gets with the term behind
it. -/
theorem convert_of_reordered_box :
    let settings := ofProject ((Project.empty.withColumns 12).withBreakpoint ⟨"sm", none, none⟩)
    let element : Element :=
      ⟨"box", [.made "sm" "12", .made "id" "b", .made "fit" ""], false, .nowhere⟩
    let other : Element :=
      ⟨"box", [.made "fit" "", .made "sm" "12", .made "id" "b"], false, .nowhere⟩
    element.names.Nodup ∧ element.IsReordering other ∧ (settings.convert element).2 = none ∧
      (settings.convert other).2 = none ∧
      (settings.convert element).1.IsReordering (settings.convert other).1 ∧
      (settings.convert other).1.get? "class" = (settings.convert element).1.get? "class" ∧
      ((settings.convert element).1.get? "class").bind (fun attr => attr.value.chars?) =
        some "flexi-fit sm-12" := by
  intro settings element other
  have distinct : element.names.Nodup := by decide
  have moved : other.attributes.Perm element.attributes :=
    (List.perm_append_singleton (Attribute.made "fit" "") [.made "sm" "12", .made "id" "b"]).symm
  have reordered : element.IsReordering other := ⟨rfl, moved, rfl, rfl⟩
  obtain ⟨answer, result, found⟩ := settings.convert_of_reordered distinct reordered
  have accepted : (settings.convert element).2 = none := by decide +kernel
  exact ⟨distinct, reordered, accepted, answer.trans accepted, result, found "class", by decide +kernel⟩

end Settings

end LayoutMarkup
