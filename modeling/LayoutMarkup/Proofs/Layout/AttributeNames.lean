import LayoutMarkup.Proofs.Layout.Entries
import Mathlib.Data.List.Count

/-! The names of the attributes of an element while layout attributes are converted. A conversion that
is not refused takes one attribute away for each entry of the settings that finds one. -/

namespace LayoutMarkup

namespace Element

/-- The names of the attributes in their order, with repetitions. -/
def names (element : Element) : List String := element.attributes.map Attribute.name

variable {element : Element} {name : String}

theorem get?_eq_none_iff : element.get? name = none ↔ name ∉ element.names := by
  simp [get?, names]

theorem has_iff : element.has name = true ↔ name ∈ element.names := by
  rw [has, Option.isSome_iff_ne_none, ne_eq, get?_eq_none_iff, not_not]

theorem names_remove (element : Element) (name : String) :
    (element.remove name).names = element.names.erase name := by
  rw [names, names, List.erase_eq_eraseP, List.eraseP_map]
  congr 1
  exact congrArg (fun p => element.attributes.eraseP p) (funext fun _ => decide_eq_decide.mpr eq_comm)

theorem names_removeEach (element : Element) (names : List String) :
    (element.removeEach names).names = element.names.diff names := by
  induction names generalizing element with
  | nil => simp
  | cons name names ih => rw [removeEach_cons, ih, names_remove, List.diff_cons]

/-- Only attributes are taken away. -/
theorem removeEach_eq_with_attributes (element : Element) (names : List String) :
    element.removeEach names =
      { element with attributes := (element.removeEach names).attributes } := by
  induction names generalizing element with
  | nil => rfl
  | cons name names ih => rw [removeEach_cons, ih, remove]

theorem names_push (element : Element) (attr : Attribute) :
    (element.push attr).names = element.names ++ [attr.name] := by
  simp [names, push]

/-- What a change of the first attribute of a name keeps of it is kept of all attributes. -/
theorem map_attributes_modify {α : Type} (element : Element) (name : String)
    {change : Attribute → Attribute} {view : Attribute → α} (kept : ∀ attr, view (change attr) = view attr) :
    (element.modify name change).attributes.map view = element.attributes.map view := by
  have walk : ∀ attrs : List Attribute, (modify.go name change attrs).map view = attrs.map view := by
    intro attrs
    induction attrs with
    | nil => rfl
    | cons attr rest ih =>
      rw [modify.go]
      split
      · simp [kept]
      · simp [ih]
  exact walk element.attributes

/-- What a change of the first attribute of a name does not break holds of all attributes. -/
theorem forall_attributes_modify {P : Attribute → Prop} (name : String) {change : Attribute → Attribute}
    (kept : ∀ attr, P attr → P (change attr)) (all : ∀ attr ∈ element.attributes, P attr) :
    ∀ attr ∈ (element.modify name change).attributes, P attr := by
  have walk : ∀ attrs : List Attribute, (∀ attr ∈ attrs, P attr) →
      ∀ attr ∈ modify.go name change attrs, P attr := by
    intro attrs
    induction attrs with
    | nil => exact id
    | cons attr rest ih =>
      intro all
      obtain ⟨here, others⟩ := List.forall_mem_cons.mp all
      rw [modify.go]
      split
      · exact List.forall_mem_cons.mpr ⟨kept attr here, others⟩
      · exact List.forall_mem_cons.mpr ⟨here, ih others⟩
  exact walk element.attributes all

/-- A change of the first attribute of a name that keeps the name keeps all names. -/
theorem names_modify (element : Element) (name : String) {change : Attribute → Attribute}
    (kept : ∀ attr, (change attr).name = attr.name) :
    (element.modify name change).names = element.names := element.map_attributes_modify name kept

/-- Changing the first attribute of a name into itself does nothing. -/
theorem modify_eq_self {change : Attribute → Attribute}
    (fixed : ∀ attr, element.get? name = some attr → change attr = attr) :
    element.modify name change = element := by
  have walk : ∀ attrs : List Attribute,
      (∀ attr, attrs.find? (fun attr => attr.name = name) = some attr → change attr = attr) →
      modify.go name change attrs = attrs := by
    intro attrs
    induction attrs with
    | nil => intro _; rfl
    | cons attr rest ih =>
      intro fixed
      rw [modify.go]
      by_cases same : attr.name = name
      · rw [if_pos same, fixed attr (by simp [same])]
      · rw [if_neg same, ih fun other found => fixed other (by simp [same, found])]
  have unchanged : modify.go name change element.attributes = element.attributes :=
    walk element.attributes fixed
  rw [modify, unchanged]

theorem names_setClass (element : Element) (classes : String) :
    (element.setClass classes).names =
      if "class" ∈ element.names then element.names else element.names ++ ["class"] := by
  unfold setClass
  by_cases present : "class" ∈ element.names
  · rw [if_pos (has_iff.mpr present), if_pos present]
    apply names_modify
    intro attr
    split <;> rfl
  · rw [if_neg (fun has => present (has_iff.mp has)), if_neg present, names_push]
    rfl

end Element

namespace Settings

/-- The names of all entries of the settings that take attributes: terms, then breakpoints. -/
def layoutNames (settings : Settings) : List String :=
  settings.attributes.map Term.name ++ settings.breakpoints.map Breakpoint.short

variable {settings : Settings} {element : Element}

theorem map_name_entries (settings : Settings) :
    settings.entries.map Entry.name = settings.layoutNames := by
  rw [entries, List.map_append, List.map_map, List.map_map]
  rfl

/-- Refused or not, collecting classes only takes attributes away, those of the first entries. -/
theorem exists_removeEach_collect (settings : Settings) (element : Element) :
    ∃ names, names <+: settings.layoutNames ∧
      (settings.collect element).element = element.removeEach names := by
  rw [collect_eq, Conversion.element_after, ← map_name_entries]
  cases answered : (settings.convertEntries settings.entries element).refusal with
  | none => exact ⟨_, List.prefix_rfl, element_convertEntries answered⟩
  | some refusal =>
    obtain ⟨before, entry, later, split, -, left, -⟩ := exists_entry_of_refused answered
    exact ⟨_, split ▸ (List.prefix_append before (entry :: later)).map Entry.name, left⟩

/-- Nothing but the attributes of an element is converted. -/
theorem convert_eq_with_attributes (settings : Settings) (element : Element) :
    (settings.convert element).1 =
      { element with attributes := (settings.convert element).1.attributes } := by
  obtain ⟨names, -, collected⟩ := exists_removeEach_collect settings element
  have kept := element.removeEach_eq_with_attributes names
  rw [← collected] at kept
  simp only [convert, Conversion.result]
  split
  · exact kept
  · rw [kept]
    unfold Element.setClass
    split <;> rfl

theorem tag_convert (settings : Settings) (element : Element) :
    (settings.convert element).1.tag = element.tag := by
  rw [convert_eq_with_attributes]

/-- Every entry of the settings takes the first attribute of its name, if there is one left. -/
theorem names_collect (accepted : (settings.collect element).refusal = none) :
    (settings.collect element).element.names = element.names.diff settings.layoutNames := by
  rw [collect_eq] at accepted ⊢
  rw [Conversion.element_after, element_convertEntries accepted, Element.names_removeEach,
    map_name_entries]

/-- Apart from `class`, a conversion leaves the names that no entry of the settings has taken. -/
theorem count_names_convert (accepted : (settings.convert element).2 = none) {name : String}
    (other : name ≠ "class") :
    (settings.convert element).1.names.count name =
      element.names.count name - settings.layoutNames.count name := by
  have refusal : (settings.collect element).refusal = none := by simpa [convert] using accepted
  have collected := names_collect refusal
  have written : (settings.convert element).1.names.count name =
      (settings.collect element).element.names.count name := by
    simp only [convert, Conversion.result]
    split
    · rfl
    · rw [Element.names_setClass]
      split
      · rfl
      · simp [Ne.symm other]
  rw [written, collected, List.count_diff]

end Settings

end LayoutMarkup
