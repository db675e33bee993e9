import LayoutMarkup.Proofs.Layout.AttributeNames

/-! Conversions of elements without repeated names. Each entry of the settings finds the attribute that
the element came with, unless an earlier entry has the same name; so acceptance, classes and the
attributes in the end can be told from the element as it was. -/

namespace LayoutMarkup

/-- The items of a list that come first under their names. -/
def firstNamed {α : Type} (name : α → String) : List α → List α
  | [] => []
  | item :: items => item :: (firstNamed name items).filter fun other => name other ≠ name item

section

variable {α β : Type} {name : α → String}

theorem firstNamed_map (make : β → α) (items : List β) :
    firstNamed name (items.map make) = (firstNamed (fun item => name (make item)) items).map make := by
  induction items with
  | nil => rfl
  | cons item items ih =>
    rw [List.map_cons, firstNamed, ih, List.filter_map, firstNamed, List.map_cons]
    rfl

theorem firstNamed_append (first second : List α) :
    firstNamed name (first ++ second) =
      firstNamed name first ++
        (firstNamed name second).filter fun other => name other ∉ first.map name := by
  induction first with
  | nil => exact (List.filter_eq_self.mpr (by simp)).symm
  | cons item first ih =>
    rw [List.cons_append, firstNamed, ih, List.filter_append, List.filter_filter, firstNamed]
    congr 3
    funext other
    simp [Bool.decide_and]

theorem mem_firstNamed_iff {items : List α} {item : α} :
    item ∈ firstNamed name items ↔
      items.find? (fun other => name other = name item) = some item := by
  induction items with
  | nil => simp [firstNamed]
  | cons first items ih =>
    by_cases same : name first = name item
    · simp [firstNamed, same, eq_comm]
    · have other : item ≠ first := fun equal => same (equal ▸ rfl)
      simp [firstNamed, same, other, Ne.symm same, ih]

private theorem flatMap_filter (keep : α → Bool) (make : α → List β) (items : List α) :
    (items.filter keep).flatMap make =
      items.flatMap fun item => if keep item then make item else [] := by
  induction items with
  | nil => rfl
  | cons item items ih => by_cases kept : keep item = true <;> simp [kept, ih]

end

namespace Element

variable {element : Element}

/-- The element without all attributes of some names. -/
def without (element : Element) (names : List String) : Element :=
  { element with attributes := element.attributes.filter fun attr => attr.name ∉ names }

theorem remove_eq_without (distinct : element.names.Nodup) (name : String) :
    element.remove name = element.without [name] := by
  obtain ⟨tag, attributes, selfClosing, span⟩ := element
  simp only [remove, without, Element.mk.injEq, true_and, and_true]
  induction attributes with
  | nil => rfl
  | cons attr rest ih =>
    obtain ⟨fresh, distinct⟩ := List.nodup_cons.mp distinct
    by_cases same : attr.name = name
    · have others : ∀ other ∈ rest, other.name ≠ name := by
        intro other member equal
        exact fresh (same ▸ equal ▸ List.mem_map_of_mem member)
      have kept : rest.filter (fun other => other.name ∉ [name]) = rest :=
        List.filter_eq_self.mpr (by simpa using others)
      rw [List.filter_cons_of_neg (by simp [same]), kept, List.eraseP_cons_of_pos (by simp [same])]
    · simp [same, ih distinct]

theorem names_without (names : List String) :
    (element.without names).names = element.names.filter (· ∉ names) := by
  rw [Element.names, Element.names, without, List.filter_map]
  rfl

theorem get?_without (names : List String) (name : String) :
    (element.without names).get? name = if name ∈ names then none else element.get? name := by
  simp only [get?, without, List.find?_filter]
  split
  · rename_i listed
    rw [List.find?_eq_none]
    intro attr _ both
    simp only [decide_eq_true_eq] at both
    exact both.1 (both.2 ▸ listed)
  · rename_i unlisted
    congr 1
    funext attr
    by_cases same : attr.name = name <;> simp [same, unlisted]

/-- On an element without repeated names, taking each name once takes all attributes of the names. -/
theorem removeEach_eq_without (distinct : element.names.Nodup) (names : List String) :
    element.removeEach names = element.without names := by
  induction names generalizing element with
  | nil =>
    have kept : element.attributes.filter (fun attr => attr.name ∉ []) = element.attributes :=
      List.filter_eq_self.mpr (by simp)
    rw [removeEach_nil, without, kept]
  | cons name names ih =>
    have left : (element.without [name]).names.Nodup := by
      rw [names_without]
      exact distinct.filter _
    rw [removeEach_cons, remove_eq_without distinct, ih left]
    simp [without, List.filter_filter, Bool.and_comm]

end Element

namespace Settings

variable {settings : Settings} {element : Element} {name : String}

theorem outcome_remove (distinct : element.names.Nodup) (entry : Entry) :
    settings.outcome (element.remove name) entry =
      if entry.name = name then ([], none) else settings.outcome element entry := by
  rw [outcome, Element.remove_eq_without distinct, Element.get?_without]
  by_cases same : entry.name = name
  · simp [same]
  · simp [same, outcome]

theorem nodup_names_remove (distinct : element.names.Nodup) : (element.remove name).names.Nodup := by
  rw [Element.names_remove]
  exact distinct.erase name

/-- No entry refuses exactly when the first entry of each name does not refuse what the element came
with. -/
theorem convertEntries_accepts_iff (distinct : element.names.Nodup) (entries : List Entry) :
    (settings.convertEntries entries element).refusal = none ↔
      ∀ entry ∈ firstNamed Entry.name entries, (settings.outcome element entry).2 = none := by
  induction entries generalizing element with
  | nil => simp [convertEntries, firstNamed]
  | cons entry entries ih =>
    rw [firstNamed, List.forall_mem_cons]
    cases answered : (settings.outcome element entry).2 with
    | some refusal => simp [convertEntries_refused answered]
    | none =>
      rw [convertEntries_accepted answered, Conversion.refusal_after,
        ih (nodup_names_remove distinct)]
      -- only entries of the same name miss what was removed, and they are not the first of it
      simp only [outcome_remove distinct, true_and, List.mem_filter, decide_eq_true_eq]
      constructor
      · rintro accepted other ⟨member, apart⟩
        simpa [apart] using accepted other member
      · intro accepted other member
        by_cases same : other.name = entry.name
        · simp [same]
        · simpa [same] using accepted other ⟨member, same⟩

/-- The classes are those that the first entry of each name makes of what the element came with. -/
theorem entries_convertEntries (distinct : element.names.Nodup) {entries : List Entry}
    (accepted : (settings.convertEntries entries element).refusal = none) :
    (settings.convertEntries entries element).entries =
      (firstNamed Entry.name entries).flatMap fun entry => (settings.outcome element entry).1 := by
  induction entries generalizing element with
  | nil => rfl
  | cons entry entries ih =>
    cases answered : (settings.outcome element entry).2 with
    | some refusal =>
      rw [convertEntries_refused answered] at accepted
      cases accepted
    | none =>
      rw [convertEntries_accepted answered, Conversion.refusal_after] at accepted
      have rest := ih (nodup_names_remove distinct) accepted
      rw [convertEntries_accepted answered, firstNamed, List.flatMap_cons, flatMap_filter,
        Conversion.entries_after, rest]
      congr 2
      funext other
      rw [outcome_remove distinct]
      by_cases same : other.name = entry.name <;> simp [same]

end Settings

end LayoutMarkup
