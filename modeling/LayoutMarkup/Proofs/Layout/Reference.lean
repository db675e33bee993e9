import LayoutMarkup.Proofs.Layout.DistinctNames
import Mathlib.Data.List.Basic

/-! The conversion of an element as a whole, told from the element as it is beforehand: which values are
accepted, which classes come out and where they are written. -/

namespace LayoutMarkup

/-- The values that set a term: the empty text for a simple one, and its own values for a complex one. -/
def Term.Takes : Term → AttributeValue → Prop
  | .simple _, value => value.chars? = some ""
  | .complex _ values, value => ∃ chars ∈ values, value.chars? = some chars

/-- What a value sets a term to; a simple term has no value. -/
def Term.valueOf? : Term → AttributeValue → Option String
  | .simple _, _ => none
  | .complex .., value => value.chars?

theorem Term.setting?_eq (term : Term) (value : AttributeValue) :
    (term.setting? value = none ∧ ¬ term.Takes value) ∨
      (term.setting? value = some (term.valueOf? value) ∧ term.Takes value) := by
  cases term with
  | simple name =>
    cases literal : value.chars? with
    | none => simp [setting?, Takes, literal]
    | some chars => by_cases blank : chars = "" <;> simp [setting?, Takes, valueOf?, literal, blank]
  | complex name values =>
    cases literal : value.chars? with
    | none => simp [setting?, Takes, literal]
    | some chars =>
      by_cases listed : chars ∈ values <;>
        simp [setting?, Takes, valueOf?, allows, literal, listed]

/-- The value of `class` with classes added to it: a literal text makes way for them, since it is the
first of them, and to all else they are appended as a literal part. -/
def AttributeValue.withClasses (classes : String) : AttributeValue → AttributeValue
  | .text literal => .text { literal with chars := classes }
  | .mustache call => .concat [.mustache call, .text (.made (" " ++ classes))] call.span
  | .concat parts span => .concat (parts ++ [.text (.made (" " ++ classes))]) span

namespace Element

/-- The element with classes written into its `class`, which is put at the end if there is none. -/
def withClasses (element : Element) (classes : List String) : Element :=
  if classes = [] then element
  else if "class" ∈ element.names then
    { element with attributes := element.attributes.map fun attr =>
        if attr.name = "class" then { attr with value := attr.value.withClasses (" ".intercalate classes) }
        else attr }
  else
    { element with
      attributes := element.attributes ++ [.made "class" (" ".intercalate classes)] }

/-- The literal `class` that an element has already, unless it is empty. -/
def ownClass (element : Element) : List String :=
  ((element.get? "class").bind fun attr => attr.value.chars?).toList.filter (· ≠ "")

variable {element : Element}

theorem names_existingClass (element : Element) :
    element.existingClass.map ClassEntry.name = element.ownClass := by
  unfold existingClass ownClass
  cases literal : (element.get? "class").bind (fun attr => attr.value.chars?) with
  | none => simp [literal]
  | some chars => by_cases blank : chars = "" <;> simp [literal, blank]

theorem mem_iff_get? (distinct : element.names.Nodup) {attr : Attribute} :
    attr ∈ element.attributes ↔ element.get? attr.name = some attr := by
  constructor
  · intro member
    obtain ⟨before, later, split⟩ := List.append_of_mem member
    have apart : ∀ other ∈ before, other.name ≠ attr.name := by
      intro other earlier same
      rw [names, split, List.map_append] at distinct
      exact (List.nodup_append.mp distinct).2.2 _ (List.mem_map_of_mem earlier) attr.name
        (by simp) same
    have absent : before.find? (fun other => other.name = attr.name) = none := by
      simpa using apart
    simp [get?, split, List.find?_append, absent]
  · exact List.mem_of_find?_eq_some

/-- With no name repeated, the first attribute of a name is the only one. -/
theorem attributes_modify (distinct : element.names.Nodup) (name : String)
    (change : Attribute → Attribute) :
    (element.modify name change).attributes =
      element.attributes.map fun attr => if attr.name = name then change attr else attr := by
  obtain ⟨tag, attributes, selfClosing, span⟩ := element
  simp only [modify]
  induction attributes with
  | nil => rfl
  | cons attr rest ih =>
    obtain ⟨fresh, distinct⟩ := List.nodup_cons.mp distinct
    rw [modify.go]
    by_cases same : attr.name = name
    · have others : ∀ other ∈ rest, (if other.name = name then change other else other) = other := by
        intro other member
        rw [if_neg]
        intro equal
        exact fresh (same ▸ equal ▸ List.mem_map_of_mem member)
      rw [if_pos same, List.map_cons, if_pos same, List.map_congr_left others, List.map_id']
    · rw [if_neg same, List.map_cons, if_neg same, ih distinct]

theorem setClass_eq_withClasses (distinct : element.names.Nodup) {classes : List String}
    (filled : classes ≠ []) :
    element.setClass (" ".intercalate classes) = element.withClasses classes := by
  rw [withClasses, if_neg filled]
  by_cases present : "class" ∈ element.names
  · rw [if_pos present, setClass, if_pos (has_iff.mpr present)]
    have changed := attributes_modify distinct "class" fun attr =>
      { attr with value := attr.value.withClasses (" ".intercalate classes) }
    rw [← changed]
    unfold modify
    congr 2
    funext attr
    cases attr.value <;> rfl
  · rw [if_neg present, setClass, if_neg fun has => present (has_iff.mp has)]
    rfl

end Element

namespace Settings

variable {settings : Settings} {element : Element}

/-- The values that set a breakpoint: literal texts of which every word is a token. -/
def TakesTokens (settings : Settings) (breakpoint : Breakpoint) (value : AttributeValue) : Prop :=
  ∃ chars, value.chars? = some chars ∧
    ∀ token ∈ blankWords chars.toList, ∃ entry, settings.tokenClass breakpoint token = .ok entry

/-- What it takes for an element to be converted: each attribute with the name of a term suits the
first term of its name, and each other one with the name of a breakpoint suits the first of these. -/
structure Accepts (settings : Settings) (element : Element) : Prop where
  terms : ∀ attr ∈ element.attributes, ∀ term,
    settings.attributes.find? (fun other => other.name = attr.name) = some term →
      term.Takes attr.value
  breakpoints : ∀ attr ∈ element.attributes, (∀ term ∈ settings.attributes, term.name ≠ attr.name) →
    ∀ breakpoint, settings.breakpoints.find? (fun other => other.short = attr.name) = some breakpoint →
      settings.TakesTokens breakpoint attr.value

/-- The class of a term that an element carries. -/
def termClass? (settings : Settings) (element : Element) (term : Term) : Option String :=
  (element.get? term.name).map fun attr =>
    settings.classNames.term term.name (term.valueOf? attr.value)

/-- The classes of a breakpoint that an element carries, one for each token. -/
def breakpointClasses (settings : Settings) (element : Element) (breakpoint : Breakpoint) :
    List String :=
  match (element.get? breakpoint.short).bind fun attr => attr.value.chars? with
  | none => []
  | some chars => (blankWords chars.toList).filterMap fun token =>
      (settings.tokenClass breakpoint token).toOption.map ClassEntry.name

/-- All classes of an element in their order: its own, then those of terms, then those of breakpoints
under names that no term has. -/
def classList (settings : Settings) (element : Element) : List String :=
  element.ownClass ++
    (firstNamed Term.name settings.attributes).filterMap (settings.termClass? element) ++
    ((firstNamed Breakpoint.short settings.breakpoints).filter fun breakpoint =>
      breakpoint.short ∉ settings.attributes.map Term.name).flatMap (settings.breakpointClasses element)

theorem tokenClasses_accepts_iff (breakpoint : Breakpoint) (tokens : List (List Char)) :
    (settings.tokenClasses breakpoint tokens).2 = none ↔
      ∀ token ∈ tokens, ∃ entry, settings.tokenClass breakpoint token = .ok entry := by
  induction tokens with
  | nil => simp [tokenClasses]
  | cons token tokens ih =>
    rw [tokenClasses, List.forall_mem_cons, ← ih]
    cases settings.tokenClass breakpoint token <;> simp

theorem names_tokenClasses {breakpoint : Breakpoint} {tokens : List (List Char)}
    (accepted : (settings.tokenClasses breakpoint tokens).2 = none) :
    (settings.tokenClasses breakpoint tokens).1.map ClassEntry.name =
      tokens.filterMap fun token =>
        (settings.tokenClass breakpoint token).toOption.map ClassEntry.name := by
  induction tokens with
  | nil => rfl
  | cons token tokens ih =>
    rw [tokenClasses] at accepted ⊢
    cases told : settings.tokenClass breakpoint token with
    | error refusal => simp [told] at accepted
    | ok entry =>
      simp only [told] at accepted
      simp [told, Except.toOption, ih accepted]

theorem outcome_term (element : Element) (term : Term) :
    ((settings.outcome element (.term term)).2 = none ↔
      ∀ attr, element.get? term.name = some attr → term.Takes attr.value) ∧
    ((settings.outcome element (.term term)).2 = none →
      (settings.outcome element (.term term)).1.map ClassEntry.name =
        (settings.termClass? element term).toList) := by
  rw [outcome, Entry.name, termClass?]
  cases found : element.get? term.name with
  | none => simp
  | some attr =>
    rcases term.setting?_eq attr.value with ⟨unset, refused⟩ | ⟨set, taken⟩
    · simp [answer, unset, refused]
    · simp [answer, set, taken]

theorem outcome_breakpoint (element : Element) (breakpoint : Breakpoint) :
    ((settings.outcome element (.breakpoint breakpoint)).2 = none ↔
      ∀ attr, element.get? breakpoint.short = some attr →
        settings.TakesTokens breakpoint attr.value) ∧
    ((settings.outcome element (.breakpoint breakpoint)).2 = none →
      (settings.outcome element (.breakpoint breakpoint)).1.map ClassEntry.name =
        settings.breakpointClasses element breakpoint) := by
  rw [outcome, Entry.name, breakpointClasses]
  cases found : element.get? breakpoint.short with
  | none => simp
  | some attr =>
    cases literal : attr.value.chars? with
    | none => simp [answer, literal, TakesTokens]
    | some chars =>
      simp only [answer, literal, TakesTokens, Option.some.injEq, Option.bind_some, forall_eq',
        exists_eq_left']
      exact ⟨tokenClasses_accepts_iff breakpoint _, names_tokenClasses⟩

/-- The entries that come first under their names are terms, and the breakpoints under other names. -/
theorem firstNamed_entries (settings : Settings) :
    firstNamed Entry.name settings.entries =
      (firstNamed Term.name settings.attributes).map .term ++
        ((firstNamed Breakpoint.short settings.breakpoints).filter fun breakpoint =>
          breakpoint.short ∉ settings.attributes.map Term.name).map .breakpoint := by
  rw [entries, firstNamed_append, firstNamed_map, firstNamed_map, List.filter_map, List.map_map]
  rfl

/-- What is asked of the first items under the names of attributes can be asked of the attributes. -/
private theorem forall_firstNamed_iff {α : Type} {name : α → String} {items : List α}
    (distinct : element.names.Nodup) {P : α → Attribute → Prop} :
    (∀ item ∈ firstNamed name items, ∀ attr, element.get? (name item) = some attr → P item attr) ↔
      ∀ attr ∈ element.attributes, ∀ item,
        items.find? (fun other => name other = attr.name) = some item → P item attr := by
  constructor
  · intro met attr member item first
    have same : name item = attr.name := by simpa using List.find?_some first
    apply met item
    · rwa [mem_firstNamed_iff, same]
    · rw [same]
      exact (Element.mem_iff_get? distinct).mp member
  · intro met item member attr found
    have same : attr.name = name item := by simpa using List.find?_some found
    apply met attr
    · exact List.mem_of_find?_eq_some found
    · rw [same]
      exact mem_firstNamed_iff.mp member

theorem collect_accepts_iff (distinct : element.names.Nodup) :
    (settings.collect element).refusal = none ↔ settings.Accepts element := by
  rw [collect_eq, Conversion.refusal_after, convertEntries_accepts_iff distinct, firstNamed_entries,
    List.forall_mem_append, List.forall_mem_map, List.forall_mem_map]
  simp only [(outcome_term element _).1, (outcome_breakpoint element _).1, List.mem_filter,
    decide_eq_true_eq]
  constructor
  · intro ⟨terms, breakpoints⟩
    refine ⟨(forall_firstNamed_iff distinct).mp terms, ?_⟩
    intro attr member unlisted breakpoint first
    have same : breakpoint.short = attr.name := by simpa using List.find?_some first
    have free : breakpoint.short ∉ settings.attributes.map Term.name := by
      intro listed
      obtain ⟨term, known, equal⟩ := List.mem_map.mp listed
      exact unlisted term known (equal.trans same)
    apply breakpoints breakpoint ⟨mem_firstNamed_iff.mpr (same ▸ first), free⟩
    rw [same]
    exact (Element.mem_iff_get? distinct).mp member
  · intro ⟨terms, breakpoints⟩
    refine ⟨(forall_firstNamed_iff distinct).mpr terms, ?_⟩
    intro breakpoint ⟨member, free⟩ attr found
    have same : attr.name = breakpoint.short := by simpa using List.find?_some found
    apply breakpoints attr (List.mem_of_find?_eq_some found)
    · intro term known equal
      exact free (equal.trans same ▸ List.mem_map_of_mem known)
    · rw [same]
      exact mem_firstNamed_iff.mp member

theorem names_collect_entries (distinct : element.names.Nodup)
    (accepted : (settings.collect element).refusal = none) :
    (settings.collect element).entries.map ClassEntry.name = settings.classList element := by
  rw [collect_eq] at accepted ⊢
  rw [Conversion.refusal_after] at accepted
  have quiet := (convertEntries_accepts_iff distinct settings.entries).mp accepted
  rw [firstNamed_entries, List.forall_mem_append, List.forall_mem_map, List.forall_mem_map] at quiet
  rw [Conversion.entries_after, List.map_append, Element.names_existingClass,
    entries_convertEntries distinct accepted, firstNamed_entries, List.map_flatMap,
    List.flatMap_append, List.flatMap_map, List.flatMap_map, classList, List.append_assoc,
    List.filterMap_eq_flatMap_toList]
  congr 2
  · exact List.flatMap_congr fun term member => (outcome_term element term).2 (quiet.1 term member)
  · exact List.flatMap_congr fun breakpoint member =>
      (outcome_breakpoint element breakpoint).2 (quiet.2 breakpoint member)

/-- An element without repeated names is converted exactly when its settings accept it. It then loses
all attributes with names of the settings, and gets the classes that these stand for. -/
theorem convert_eq_reference (distinct : element.names.Nodup) :
    ((settings.convert element).2 = none ↔ settings.Accepts element) ∧
    (settings.Accepts element →
      (settings.collect element).entries.map ClassEntry.name = settings.classList element ∧
      (settings.convert element).1 =
        (element.without settings.layoutNames).withClasses (settings.classList element)) := by
  have accepts : (settings.collect element).refusal = none ↔ settings.Accepts element :=
    collect_accepts_iff distinct
  constructor
  · rw [← accepts, convert, Option.map_eq_none_iff]
  · intro accepted
    have refusal := accepts.mpr accepted
    have classes := names_collect_entries distinct refusal
    have left : (settings.collect element).element = element.without settings.layoutNames := by
      rw [collect_eq] at refusal ⊢
      rw [Conversion.element_after, element_convertEntries refusal, map_name_entries,
        Element.removeEach_eq_without distinct]
    have single : (element.without settings.layoutNames).names.Nodup := by
      rw [Element.names_without]
      exact distinct.filter _
    refine ⟨classes, ?_⟩
    by_cases bare : settings.classList element = []
    · have empty : (settings.collect element).entries = [] := by simpa [bare] using classes
      simp [convert, Conversion.result, empty, left, bare, Element.withClasses]
    · have filled : (settings.collect element).entries ≠ [] := by
        intro empty
        rw [empty] at classes
        exact bare classes.symm
      rw [← Element.setClass_eq_withClasses single bare, ← classes, ← left]
      simp [convert, Conversion.result, Conversion.classes, refusal, filled]

/-- A box with a term, a breakpoint, a dynamic class and an attribute of its own. -/
theorem convert_eq_reference_of_box :
    let settings := ofProject ((Project.empty.withColumns 12).withBreakpoint ⟨"sm", none, none⟩)
    let element : Element :=
      ⟨"box", [.made "sm" "12 visible", ⟨"class", .mustache ⟨.made "c", [], none, .nowhere⟩, .nowhere⟩,
        .made "align" "center", .made "id" "b"], false, .nowhere⟩
    element.names.Nodup ∧ settings.Accepts element ∧
      (settings.collect element).entries.map ClassEntry.name = settings.classList element ∧
      settings.classList element = ["align-center", "sm-12", "visible-sm"] ∧
      (settings.convert element).1 =
        (element.without settings.layoutNames).withClasses (settings.classList element) := by
  intro settings element
  have distinct : element.names.Nodup := by decide
  obtain ⟨accepts, converted⟩ := @convert_eq_reference settings element distinct
  have accepted := accepts.mp (by decide +kernel)
  obtain ⟨classes, result⟩ := converted accepted
  exact ⟨distinct, accepted, classes, by decide +kernel, result⟩

end Settings

end LayoutMarkup
