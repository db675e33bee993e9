import LayoutMarkup.Proofs.Layout.Passes
import LayoutMarkup.Template.Read
import Mathlib.Data.List.Nodup

/-! A second build changes nothing. What a conversion leaves on an element holds no name of the
settings any more, and the class it wrote is taken over as it stands; a component is no element. -/

namespace LayoutMarkup

/-- No element of the template repeats the name of an attribute. -/
def Template.HasDistinctNames (template : Template) : Prop :=
  ∀ node ∈ template.nodes, ∀ element ∈ node.element?, element.names.Nodup

instance (template : Template) : Decidable template.HasDistinctNames :=
  inferInstanceAs (Decidable (∀ node ∈ template.nodes, ∀ element ∈ node.element?, element.names.Nodup))

namespace Settings

variable {settings : Settings} {element : Element} {template : Template}

private theorem convertEntries_of_unlisted {entries : List Entry}
    (free : ∀ entry ∈ entries, entry.name ∉ element.names) :
    settings.convertEntries entries element = ⟨element, [], none⟩ := by
  induction entries with
  | nil => rfl
  | cons entry entries ih =>
    have absent := Element.get?_eq_none_iff.mpr (free entry List.mem_cons_self)
    have nothing : settings.outcome element entry = ([], none) := by rw [outcome, absent]
    rw [convertEntries, nothing, Element.remove_of_get?_eq_none absent]
    exact ih fun other member => free other (List.mem_cons_of_mem entry member)

theorem collect_of_unlisted (free : ∀ name ∈ settings.layoutNames, name ∉ element.names) :
    settings.collect element = ⟨element, element.existingClass, none⟩ := by
  rw [← map_name_entries, List.forall_mem_map] at free
  rw [collect_eq, convertEntries_of_unlisted free, Conversion.after, List.append_nil]

/-- A literal class is replaced by itself. -/
private theorem setClass_existing {chars : String}
    (existing : (element.get? "class").bind (fun attr => attr.value.chars?) = some chars) :
    element.setClass chars = element := by
  obtain ⟨attr, found, literal⟩ := Option.bind_eq_some_iff.mp existing
  have present : element.has "class" = true := by simp [Element.has, found]
  rw [Element.setClass, if_pos present]
  apply Element.modify_eq_self
  intro other same
  obtain rfl : attr = other := Option.some.inj (found.symm.trans same)
  obtain ⟨name, value, span⟩ := attr
  cases value with
  | text text =>
    obtain rfl : text.chars = chars := by simpa [AttributeValue.chars?] using literal
    rfl
  | mustache call => cases literal
  | concat parts span => cases literal

/-- An element without any name of the settings is converted into itself. -/
theorem convert_of_unlisted (free : ∀ name ∈ settings.layoutNames, name ∉ element.names) :
    settings.convert element = (element, none) := by
  have collected := collect_of_unlisted free
  simp only [convert, collected, Option.map_none, Conversion.result, Option.isSome_none,
    Bool.false_or]
  congr 1
  split
  · rfl
  · rename_i filled
    simp only [Element.existingClass, Option.bind_eq_bind] at filled
    split at filled
    · rename_i chars existing
      by_cases blank : chars = ""
      · simp [blank] at filled
      · simpa [Conversion.classes, Element.existingClass, existing, blank] using
          setClass_existing existing
    · simp at filled

/-- The element that a successful conversion leaves of one without repeated names is converted into
itself. -/
theorem convert_convert (unreserved : "class" ∉ settings.layoutNames)
    (distinct : element.names.Nodup) (accepted : (settings.convert element).2 = none) :
    settings.convert (settings.convert element).1 = ((settings.convert element).1, none) := by
  apply convert_of_unlisted
  intro name known
  have other : name ≠ "class" := fun same => unreserved (same ▸ known)
  have listed : 0 < settings.layoutNames.count name := List.count_pos_iff.mpr known
  have single : element.names.count name ≤ 1 := List.nodup_iff_count_le_one.mp distinct name
  rw [← List.count_eq_zero, count_names_convert accepted other]
  omega

/-- The conversion has nothing to do on a node that it has been applied to without a failure. -/
theorem fixed_conversion (unreserved : "class" ∉ settings.layoutNames) {node : Node}
    (distinct : ∀ element ∈ node.element?, element.names.Nodup)
    (accepted : node.complaint settings.conversionRule = none) :
    (node.ruled settings.conversionRule).Fixed settings.conversionRule := by
  cases node with
  | leaf content => exact ⟨rfl, rfl⟩
  | branch head children =>
    cases head with
    | program span => exact ⟨rfl, rfl⟩
    | block block => exact ⟨rfl, rfl⟩
    | element element =>
      simp only [Node.complaint, conversionRule] at accepted
      by_cases matched : settings.converts element.tag = true
      · simp only [matched, if_true] at accepted
        have again := convert_convert unreserved (distinct element rfl) accepted
        have tag := tag_convert settings element
        simp [Node.Fixed, Node.ruled, Node.complaint, Node.mapHead, conversionRule, matched, tag,
          again]
      · simp [Node.Fixed, Node.ruled, Node.complaint, Node.mapHead, conversionRule, matched]

theorem fixed_component (node : Node) : (node.ruled componentRule).Fixed componentRule := by
  cases node with
  | leaf content => exact ⟨rfl, rfl⟩
  | branch head children =>
    cases head with
    | program span => exact ⟨rfl, rfl⟩
    | block block => exact ⟨rfl, rfl⟩
    | element element =>
      by_cases component : element.isComponent = true <;>
        simp [Node.Fixed, Node.ruled, Node.complaint, Node.mapHead, componentRule, component]

/-- Making components gives the conversion nothing new to do. -/
theorem fixed_conversion_component {node : Node} (fixed : node.Fixed settings.conversionRule) :
    (node.ruled componentRule).Fixed settings.conversionRule := by
  cases node with
  | leaf content => exact ⟨rfl, rfl⟩
  | branch head children =>
    cases head with
    | program span => exact ⟨rfl, rfl⟩
    | block block => exact ⟨rfl, rfl⟩
    | element element =>
      by_cases component : element.isComponent = true
      · simp [Node.Fixed, Node.ruled, Node.complaint, Node.mapHead, componentRule, component,
          conversionRule]
      · have same : (Node.branch (.element element) children).ruled componentRule =
            .branch (.element element) children := by
          simp [Node.ruled, Node.mapHead, componentRule, component]
        rwa [same]

/-- Every node in document order is left fixed by a successful conversion. -/
theorem fixed_of_conversion (unreserved : "class" ∉ settings.layoutNames)
    (distinct : template.HasDistinctNames)
    (accepted : (settings.conversion.run template).2 = none) :
    ∀ id ∈ template.descendants, ∀ node,
      (settings.conversion.run template).1.get? id = some node →
        node.Fixed settings.conversionRule := by
  apply Template.fixed_of_applyEach
  · intro id node found
    exact fixed_conversion unreserved (distinct node (Array.mem_of_getElem? found))
  · exact Prod.ext rfl accepted

/-- A pass that finds every node in document order fixed does nothing. -/
private theorem run_eq_self {pass : Pass} {template : Template} {order : List NodeId}
    (same : template.descendants = order)
    (fixed : ∀ id ∈ order, ∀ node, template.get? id = some node → node.Fixed pass.rule) :
    pass.run template = (template, none) := by
  apply Template.applyEach_eq_self
  rw [same]
  exact fixed

/-- On templates without repeated attribute names, a conversion that succeeds, and a whole build that
succeeds, succeed a second time and change nothing. -/
theorem conversion_and_build_idempotent (unreserved : "class" ∉ settings.layoutNames)
    (distinct : template.HasDistinctNames) :
    ((settings.conversion.run template).2 = none →
      settings.conversion.run (settings.conversion.run template).1 =
        ((settings.conversion.run template).1, none)) ∧
    ((settings.build template).2 = none →
      settings.build (settings.build template).1 = ((settings.build template).1, none)) := by
  constructor
  · intro accepted
    exact run_eq_self (settings.conversion.descendants_run template)
      (fixed_of_conversion unreserved distinct accepted)
  · intro accepted
    have converted := accepted_of_build accepted
    rw [build_of_accepted converted]
    have order := (Pass.component.descendants_run (settings.conversion.run template).1).trans
      (settings.conversion.descendants_run template)
    have first : settings.conversion.run
        (Pass.component.run (settings.conversion.run template).1).1 = (_, none) :=
      run_eq_self order fun id reached node found =>
        Template.closed_applyEach (P := fun node => node.Fixed settings.conversionRule)
          (fun _ fixed => fixed_conversion_component fixed) _
          (fixed_of_conversion unreserved distinct converted id reached) node found
    have second : Pass.component.run
        (Pass.component.run (settings.conversion.run template).1).1 = (_, none) :=
      run_eq_self (Pass.component.descendants_run _)
        (Template.fixed_of_applyEach (fun _ node _ _ => fixed_component node)
          (Prod.ext rfl (component_accepted _ _)))
    rw [build_of_accepted (by rw [first]), first, second]

/-- A container with a dynamic class, and a box within it, under settings with one breakpoint. -/
theorem build_idempotent_of_container :
    let settings := ofProject ((Project.empty.withColumns 12).withBreakpoint ⟨"sm", none, none⟩)
    let template := (Template.read
      "<container class={{c}} sm='6 visible'><box wrap></box></container>").toOption.getD (.empty .nowhere)
    template.size = 3 ∧ (settings.conversion.run template).2 = none ∧
      settings.conversion.run (settings.conversion.run template).1 =
        ((settings.conversion.run template).1, none) ∧
      (settings.build template).2 = none ∧
      settings.build (settings.build template).1 = ((settings.build template).1, none) := by
  intro settings template
  have idempotent := @conversion_and_build_idempotent settings template (by decide +kernel)
    (by decide +kernel)
  have converted : (settings.conversion.run template).2 = none := by decide +kernel
  have built : (settings.build template).2 = none := by decide +kernel
  exact ⟨by decide +kernel, converted, idempotent.1 converted, built, idempotent.2 built⟩

end Settings

end LayoutMarkup
