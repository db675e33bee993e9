import LayoutMarkup.Layout.Conversion

/-! Entries of the settings. Terms and breakpoints take attributes off an element in the same manner,
so that collecting the classes of an element is one pass over all entries, the terms first. -/

namespace LayoutMarkup

namespace Element

variable {element : Element} {name : String}

/-- An attribute that is not there cannot be taken away. -/
theorem remove_of_get?_eq_none (absent : element.get? name = none) :
    element.remove name = element := by
  have kept : element.attributes.eraseP (fun attr => attr.name = name) = element.attributes := by
    apply List.eraseP_of_forall_not
    intro attr member same
    exact absurd same (List.find?_eq_none.mp absent attr member)
  rw [remove, kept]

/-- The element without the first attribute of each name. -/
def removeEach (element : Element) (names : List String) : Element := names.foldl remove element

@[simp] theorem removeEach_nil : element.removeEach [] = element := rfl

@[simp] theorem removeEach_cons (names : List String) :
    element.removeEach (name :: names) = (element.remove name).removeEach names := rfl

end Element

namespace Conversion

@[simp] theorem element_after (entries : List ClassEntry) (conversion : Conversion) :
    (conversion.after entries).element = conversion.element := rfl

@[simp] theorem entries_after (entries : List ClassEntry) (conversion : Conversion) :
    (conversion.after entries).entries = entries ++ conversion.entries := rfl

@[simp] theorem refusal_after (entries : List ClassEntry) (conversion : Conversion) :
    (conversion.after entries).refusal = conversion.refusal := rfl

@[simp] theorem after_nil (conversion : Conversion) : conversion.after [] = conversion := rfl

theorem after_andThen (entries : List ClassEntry) (first : Conversion) (next : Element → Conversion) :
    (first.after entries).andThen next = (first.andThen next).after entries := by
  cases refused : first.refusal with
  | none => simp [andThen, after, refused]
  | some refusal => simp [andThen, after, refused]

end Conversion

/-- An entry of the settings that takes an attribute. -/
inductive Entry where
  | term (term : Term)
  | breakpoint (breakpoint : Breakpoint)

def Entry.name : Entry → String
  | .term own => own.name
  | .breakpoint own => own.short

namespace Settings

variable {settings : Settings} {element : Element}

/-- All entries in the order in which they take attributes. -/
def entries (settings : Settings) : List Entry :=
  settings.attributes.map .term ++ settings.breakpoints.map .breakpoint

/-- The classes that an entry makes of a value, and why it refuses the value. The tokens in front of
a refused one have made their classes already. -/
def answer (settings : Settings) : Entry → AttributeValue → List ClassEntry × Option Refusal
  | .term term, value =>
    match term.setting? value with
    | none => ([], some (.attributeValue term.name value.describe))
    | some setting => ([⟨.term, settings.classNames.term term.name setting⟩], none)
  | .breakpoint breakpoint, value =>
    match value.chars? with
    | none => ([], some (.token value.describe breakpoint.short))
    | some chars => settings.tokenClasses breakpoint (blankWords chars.toList)

/-- What an entry makes of its attribute on an element; nothing if the element does not carry it. -/
def outcome (settings : Settings) (element : Element) (entry : Entry) :
    List ClassEntry × Option Refusal :=
  match element.get? entry.name with
  | none => ([], none)
  | some attr => settings.answer entry attr.value

/-- Let one entry after the other take its attribute, up to the first refusal. -/
def convertEntries (settings : Settings) : List Entry → Element → Conversion
  | [], element => ⟨element, [], none⟩
  | entry :: entries, element =>
    match settings.outcome element entry with
    | (classes, some refusal) => ⟨element, classes, some refusal⟩
    | (classes, none) => (convertEntries settings entries (element.remove entry.name)).after classes

theorem convertEntries_refused {entry : Entry} {entries : List Entry} {refusal : Refusal}
    (refused : (settings.outcome element entry).2 = some refusal) :
    settings.convertEntries (entry :: entries) element =
      ⟨element, (settings.outcome element entry).1, some refusal⟩ := by
  rw [convertEntries, ← refused]
  split <;> simp_all

theorem convertEntries_accepted {entry : Entry} {entries : List Entry}
    (accepted : (settings.outcome element entry).2 = none) :
    settings.convertEntries (entry :: entries) element =
      (settings.convertEntries entries (element.remove entry.name)).after
        (settings.outcome element entry).1 := by
  rw [convertEntries]
  split <;> simp_all

/-- Entries in front of others are done first. -/
theorem convertEntries_append (first second : List Entry) (element : Element) :
    settings.convertEntries (first ++ second) element =
      (settings.convertEntries first element).andThen (settings.convertEntries second) := by
  induction first generalizing element with
  | nil => rfl
  | cons entry first ih =>
    rw [List.cons_append]
    cases answered : (settings.outcome element entry).2 with
    | some refusal => rw [convertEntries_refused answered, convertEntries_refused answered]; rfl
    | none =>
      rw [convertEntries_accepted answered, convertEntries_accepted answered, ih,
        Conversion.after_andThen]

theorem convertEntries_terms (terms : List Term) (element : Element) :
    settings.convertEntries (terms.map .term) element = settings.convertTerms terms element := by
  induction terms generalizing element with
  | nil => rfl
  | cons term terms ih =>
    rw [List.map_cons, convertEntries, convertTerms, outcome, Entry.name]
    cases found : element.get? term.name with
    | none => simp [Element.remove_of_get?_eq_none found, ih]
    | some attr =>
      simp only [answer]
      cases term.setting? attr.value with
      | none => rfl
      | some setting => simp [ih]

theorem convertEntries_breakpoints (breakpoints : List Breakpoint) (element : Element) :
    settings.convertEntries (breakpoints.map .breakpoint) element =
      settings.convertBreakpoints breakpoints element := by
  induction breakpoints generalizing element with
  | nil => rfl
  | cons breakpoint breakpoints ih =>
    rw [List.map_cons, convertEntries, convertBreakpoints, outcome, Entry.name]
    cases found : element.get? breakpoint.short with
    | none => simp [Element.remove_of_get?_eq_none found, ih]
    | some attr =>
      simp only [answer]
      cases literal : attr.value.chars? with
      | none => rfl
      | some chars =>
        rcases told : settings.tokenClasses breakpoint (blankWords chars.toList) with
          ⟨classes, _ | refusal⟩
        · simp [told, ih]
        · simp [told]

/-- Collecting the classes of an element lets all entries take their attributes. -/
theorem collect_eq (settings : Settings) (element : Element) :
    settings.collect element =
      (settings.convertEntries settings.entries element).after element.existingClass := by
  rw [entries, convertEntries_append, convertEntries_terms, collect, Conversion.after_andThen]
  congr 2
  funext current
  rw [convertEntries_breakpoints]

/-- What is left when no entry has refused: an element that has lost the first attribute of each name. -/
theorem element_convertEntries {entries : List Entry}
    (accepted : (settings.convertEntries entries element).refusal = none) :
    (settings.convertEntries entries element).element =
      element.removeEach (entries.map Entry.name) := by
  induction entries generalizing element with
  | nil => rfl
  | cons entry entries ih =>
    cases answered : (settings.outcome element entry).2 with
    | some refusal =>
      rw [convertEntries_refused answered] at accepted
      cases accepted
    | none =>
      rw [convertEntries_accepted answered] at accepted ⊢
      exact ih accepted

/-- A refusal comes from the first entry that refuses its attribute; those in front of it have taken
theirs. -/
theorem exists_entry_of_refused {entries : List Entry} {refusal : Refusal}
    (refused : (settings.convertEntries entries element).refusal = some refusal) :
    ∃ before entry later, entries = before ++ entry :: later ∧
      (settings.convertEntries before element).refusal = none ∧
      (settings.convertEntries entries element).element =
        element.removeEach (before.map Entry.name) ∧
      (settings.outcome (element.removeEach (before.map Entry.name)) entry).2 = some refusal := by
  induction entries generalizing element with
  | nil => cases refused
  | cons entry entries ih =>
    cases answered : (settings.outcome element entry).2 with
    | some own =>
      rw [convertEntries_refused answered] at refused ⊢
      exact ⟨[], entry, entries, rfl, rfl, rfl, answered.trans refused⟩
    | none =>
      rw [convertEntries_accepted answered] at refused ⊢
      obtain ⟨before, other, later, rfl, quiet, left, here⟩ := ih refused
      refine ⟨entry :: before, other, later, rfl, ?_, left, here⟩
      rw [convertEntries_accepted answered]
      exact quiet

end Settings

end LayoutMarkup
