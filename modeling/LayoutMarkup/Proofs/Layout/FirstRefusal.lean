import LayoutMarkup.Proofs.Layout.Pointwise
import Mathlib.Data.List.Count

/-! What a conversion leaves when it fails. It stops at the first element in document order that would
be refused on its own; what stands before is converted, what comes after is as it was, and the refused
element has lost the attributes that entries of the settings took before the one that refused. -/

namespace LayoutMarkup

/-- Taking away the first attribute of each name does nothing only if no such attribute is there. -/
theorem Element.removeEach_eq_self_iff {element : Element} {names : List String} :
    element.removeEach names = element ↔ ∀ name ∈ names, name ∉ element.names := by
  constructor
  · intro same name member present
    -- an attribute that is taken away is missing from the count of its name
    have taken := names_removeEach element names
    rw [same] at taken
    have fewer : element.names.count name = element.names.count name - names.count name := by
      rw [← List.count_diff, ← taken]
    have there := List.count_pos_iff.mpr present
    have listed := List.count_pos_iff.mpr member
    omega
  · intro absent
    induction names with
    | nil => rfl
    | cons name names ih =>
      have free := get?_eq_none_iff.mpr (absent name List.mem_cons_self)
      rw [removeEach_cons, remove_of_get?_eq_none free]
      exact ih fun other member => absent other (List.mem_cons_of_mem name member)

namespace Settings

variable {settings : Settings} {template after : Template} {error : LayoutError}

/-- At an id there is an element whose tag is converted, and its conversion on its own is refused. -/
def Refuses (settings : Settings) (template : Template) (id : NodeId) (error : LayoutError) : Prop :=
  ∃ element, template.element? id = some element ∧ settings.converts element.tag = true ∧
    (settings.convert element).2 = some error

/-- What the rule of the conversion has to complain about is a refusal. -/
theorem complaint_conversion_iff {id : NodeId} :
    (template.get? id).bind (Node.complaint settings.conversionRule) = some error ↔
      settings.Refuses template id error := by
  unfold Refuses Template.element?
  cases template.get? id with
  | none => simp
  | some node =>
    cases node with
    | leaf content => simp [Node.complaint, Node.element?]
    | branch head children =>
      cases head with
      | program span => simp [Node.complaint, Node.element?, Head.element?, conversionRule]
      | block block => simp [Node.complaint, Node.element?, Head.element?, conversionRule]
      | element element =>
        by_cases matched : settings.converts element.tag = true <;>
          simp [Node.complaint, Node.element?, Head.element?, conversionRule, matched]

/-- At the id of an element, a converted node holds the converted element. -/
theorem element?_of_converted {id : NodeId} {element : Element}
    (found : template.element? id = some element) (matched : settings.converts element.tag = true)
    (reached : after.get? id = (template.get? id).map settings.converted) :
    after.element? id = some (settings.convert element).1 := by
  obtain ⟨children, present⟩ := Template.element?_eq_some_iff.mp found
  rw [present] at reached
  apply Template.element?_eq_some_iff.mpr
  exact ⟨children, reached.trans (by simp [converted, matched])⟩

/-- An error tells which element it is about. -/
theorem tag_and_position_of_refused {element : Element}
    (refused : (settings.convert element).2 = some error) :
    (settings.collect element).refusal = some error.refusal ∧ error.tag = element.tag ∧
      error.position = element.span.start := by
  obtain ⟨refusal, answered, rfl⟩ := Option.map_eq_some_iff.mp refused
  exact ⟨answered, rfl, rfl⟩

/-- A conversion of a tree fails exactly if an element that can be reached is refused. -/
theorem conversion_fails_iff (tree : template.IsTree) :
    (∃ error, (settings.conversion.run template).2 = some error) ↔
      ∃ id ∈ template.descendants, ∃ error, settings.Refuses template id error := by
  have accepts : (settings.conversion.run template).2 = none ↔ _ :=
    Template.applyEach_accepts_iff (Template.nodup_descendants_of_isTree tree)
  simp only [← Option.ne_none_iff_exists', ← complaint_conversion_iff]
  rw [ne_eq, accepts]
  simp [Settings.conversion]

/-- A conversion that fails has been refused at some id, and nowhere before; up to there the nodes are
converted, and all others are as they were. -/
theorem exists_refused_of_conversion (tree : template.IsTree)
    (failed : settings.conversion.run template = (after, some error)) :
    ∃ before id later, template.descendants = before ++ id :: later ∧
      settings.Refuses template id error ∧
      (∀ earlier ∈ before, ∀ own, ¬ settings.Refuses template earlier own) ∧
      (∀ other, after.get? other = if other ∈ before ∨ other = id
        then (template.get? other).map settings.converted else template.get? other) := by
  obtain ⟨before, id, later, order, quiet, complained, reached⟩ :=
    Template.exists_first_of_applyEach (Template.nodup_descendants_of_isTree tree) failed
  refine ⟨before, id, later, order, complaint_conversion_iff.mp complained, ?_, ?_⟩
  · intro earlier member own refused
    have complained : (template.get? earlier).bind (Node.complaint settings.conversion.rule) =
        some own := complaint_conversion_iff.mpr refused
    rw [quiet earlier member] at complained
    cases complained
  · intro other
    rw [reached other]
    congr 2
    exact funext ruled_conversion

/-- A conversion, which is a walk, fails exactly if an element that can be reached is refused on its
own. Its error is that of the first of these in document order, which it names with its place. All that
comes before is converted, and all that comes after is as it was. -/
theorem conversion_stops_at_first_refusal {source : String}
    (read : Template.read source = .ok template) :
    template.walk (Template.ruleVisitor settings.conversionRule) () template.size =
      some (((settings.conversion.run template).1, ()), (settings.conversion.run template).2) ∧
    ((∃ error, (settings.conversion.run template).2 = some error) ↔
      ∃ id ∈ template.descendants, ∃ error, settings.Refuses template id error) ∧
    ∀ after error, settings.conversion.run template = (after, some error) →
      ∃ before id later element, template.descendants = before ++ id :: later ∧
        template.element? id = some element ∧ settings.converts element.tag = true ∧
        (settings.convert element).2 = some error ∧
        error.tag = element.tag ∧ error.position = element.span.start ∧
        (∀ earlier ∈ before, ∀ own, ¬ settings.Refuses template earlier own) ∧
        (∀ earlier ∈ before, after.get? earlier = (template.get? earlier).map settings.converted) ∧
        ∀ other ∈ later, after.get? other = template.get? other := by
  have tree := Template.isTree_of_read read
  refine ⟨(Template.walk_eq_iff tree (Nat.le_refl _)).mpr rfl, conversion_fails_iff tree, ?_⟩
  intro after error failed
  obtain ⟨before, id, later, order, ⟨element, found, matched, refused⟩, quiet, reached⟩ :=
    exists_refused_of_conversion tree failed
  obtain ⟨-, tag, position⟩ := tag_and_position_of_refused refused
  refine ⟨before, id, later, element, order, found, matched, refused, tag, position, quiet, ?_, ?_⟩
  · intro earlier member
    rw [reached earlier, if_pos (Or.inl member)]
  · intro other member
    have once := Template.nodup_descendants_of_isTree tree
    rw [order] at once
    obtain ⟨-, rest, apart⟩ := List.nodup_append.mp once
    rw [reached other, if_neg]
    rintro (earlier | same)
    · exact apart other earlier other (List.mem_cons_of_mem id member) rfl
    · exact (List.nodup_cons.mp rest).1 (same ▸ member)

/-- Three boxes, the second of them within a block and refused. -/
theorem conversion_stops_at_second_box :
    let settings := ofProject .empty
    let source := "<box fit/>\x7b\x7b#a\x7d\x7d<box align='b'/>\x7b\x7b/a\x7d\x7d<box fit/>"
    ∃ template after error, Template.read source = .ok template ∧
      settings.conversion.run template = (after, some error) ∧
      (∃ id ∈ template.descendants, ∃ error, settings.Refuses template id error) ∧
      ∃ before id later element, template.descendants = before ++ id :: later ∧
        template.element? id = some element ∧ error.position = element.span.start ∧
        (∀ earlier ∈ before, after.get? earlier = (template.get? earlier).map settings.converted) ∧
        ∀ other ∈ later, after.get? other = template.get? other := by
  intro settings source
  have fails : (Template.read source).toOption.bind
      (fun template => (settings.conversion.run template).2) ≠ none := by
    decide +kernel
  cases read : Template.read source with
  | error problem => exact absurd (by rw [read]; rfl) fails
  | ok template =>
    rw [read] at fails
    obtain ⟨error, failed⟩ := Option.ne_none_iff_exists'.mp fails
    obtain ⟨-, refuses, first⟩ := conversion_stops_at_first_refusal read
    obtain ⟨before, id, later, element, order, found, -, -, -, position, -, earlier, rest⟩ :=
      first _ error (Prod.ext rfl failed)
    exact ⟨template, _, error, rfl, Prod.ext rfl failed, refuses.mp ⟨error, failed⟩, before, id, later,
      element, order, found, position, earlier, rest⟩

/-- What is left of a refused element: it has lost the first attribute of each entry before the one
that refused, and it has got no class. -/
theorem exists_entry_of_refused_element {element : Element}
    (refused : (settings.convert element).2 = some error) :
    ∃ before entry later, settings.entries = before ++ entry :: later ∧
      (settings.convertEntries before element).refusal = none ∧
      (settings.convert element).1 = element.removeEach (before.map Entry.name) ∧
      (settings.outcome (settings.convert element).1 entry).2 = some error.refusal := by
  obtain ⟨answered, -, -⟩ := tag_and_position_of_refused refused
  have unwritten : (settings.convert element).1 = (settings.collect element).element := by
    simp [convert, Conversion.result, answered]
  rw [unwritten]
  rw [collect_eq] at answered ⊢
  obtain ⟨before, entry, later, split, quiet, left, here⟩ := exists_entry_of_refused answered
  exact ⟨before, entry, later, split, quiet, left, left ▸ here⟩

/-- If a conversion or a build fails, then the element that its error is about has lost exactly the
attributes that the entries before the refusing one took, and has got no class; so it is as it was if
and only if these entries found nothing to take. All other nodes are converted or as they were. -/
theorem refused_element_of_failure {source : String} (read : Template.read source = .ok template)
    (failed : settings.conversion.run template = (after, some error) ∨
      settings.build template = (after, some error)) :
    ∃ id element left before entry later,
      template.element? id = some element ∧ after.element? id = some left ∧
      settings.converts element.tag = true ∧ (settings.convert element).2 = some error ∧
      settings.entries = before ++ entry :: later ∧
      (settings.convertEntries before element).refusal = none ∧
      (settings.outcome left entry).2 = some error.refusal ∧
      left = element.removeEach (before.map Entry.name) ∧
      (left = element ↔ ∀ earlier ∈ before, earlier.name ∉ element.names) ∧
      ∀ other ≠ id, after.get? other = template.get? other ∨
        after.get? other = (template.get? other).map settings.converted ∧
          ∀ own, ¬ settings.Refuses template other own := by
  have converting : settings.conversion.run template = (after, some error) :=
    failed.elim (fun alone => alone) conversion_of_build_failed
  obtain ⟨done, id, following, -, ⟨element, found, matched, refused⟩, quiet, reached⟩ :=
    exists_refused_of_conversion (Template.isTree_of_read read) converting
  obtain ⟨before, entry, later, split, accepted, left, here⟩ := exists_entry_of_refused_element refused
  refine ⟨id, element, (settings.convert element).1, before, entry, later, found, ?_, matched, refused,
    split, accepted, here, left, ?_, ?_⟩
  · apply element?_of_converted found matched
    rw [reached id, if_pos (Or.inr rfl)]
  · rw [left, Element.removeEach_eq_self_iff, List.forall_mem_map]
  · intro other apart
    rw [reached other]
    by_cases earlier : other ∈ done
    · rw [if_pos (Or.inl earlier)]
      exact Or.inr ⟨rfl, quiet other earlier⟩
    · rw [if_neg (by simp [earlier, apart])]
      exact Or.inl rfl

/-- A box whose entry for `fit` has been taken when that for `align` is refused. -/
theorem refused_element_of_failure_of_box :
    let settings := ofProject .empty
    ∃ template after error id element left before entry later,
      Template.read "<box fit align='middle'></box>" = .ok template ∧
      settings.conversion.run template = (after, some error) ∧
      template.element? id = some element ∧ after.element? id = some left ∧
      settings.entries = before ++ entry :: later ∧
      left = element.removeEach (before.map Entry.name) ∧
      (left = element ↔ ∀ earlier ∈ before, earlier.name ∉ element.names) := by
  intro settings
  have fails : (Template.read "<box fit align='middle'></box>").toOption.bind
      (fun template => (settings.conversion.run template).2) ≠ none := by
    decide +kernel
  cases read : Template.read "<box fit align='middle'></box>" with
  | error fault => exact absurd (by rw [read]; rfl) fails
  | ok template =>
    rw [read] at fails
    obtain ⟨error, failed⟩ := Option.ne_none_iff_exists'.mp fails
    have run : settings.conversion.run template =
        ((settings.conversion.run template).1, some error) := Prod.ext rfl failed
    obtain ⟨id, element, left, before, entry, later, found, stays, -, -, order, -, -, removed, intact, -⟩ :=
      refused_element_of_failure read (Or.inl run)
    exact ⟨template, _, error, id, element, left, before, entry, later, rfl, run, found, stays, order,
      removed, intact⟩

/-- It is not so that a failing conversion leaves the element that its error is about as it was. -/
theorem not_always_intact :
    ¬ ∀ (source : String) (settings : Settings) (template after : Template) (error : LayoutError),
      Template.read source = .ok template →
      settings.conversion.run template = (after, some error) →
      ∀ id element left, template.element? id = some element →
        (settings.convert element).2 = some error → after.element? id = some left →
        left.attributes = element.attributes := by
  intro intact
  let settings := ofProject .empty
  have facts : (match Template.read "<box fit align='middle'></box>" with
      | .ok template =>
        let outcome := settings.conversion.run template
        (template.element? 1).any fun element => (outcome.1.element? 1).any fun left =>
          outcome.2.isSome && (settings.convert element).2 = outcome.2 && left.names ≠ element.names
      | .error _ => false) = true := by decide +kernel
  cases read : Template.read "<box fit align='middle'></box>" with
  | error fault => simp [read] at facts
  | ok template =>
    simp only [read, Option.any_eq_true, Bool.and_eq_true, decide_eq_true_eq] at facts
    obtain ⟨element, found, left, stays, ⟨failed, refused⟩, changed⟩ := facts
    obtain ⟨error, failed⟩ := Option.isSome_iff_exists.mp failed
    have same := intact _ settings template _ error read (Prod.ext rfl failed) 1 element left found
      (refused.trans failed) stays
    exact changed (congrArg (List.map Attribute.name) same)

end Settings

end LayoutMarkup
