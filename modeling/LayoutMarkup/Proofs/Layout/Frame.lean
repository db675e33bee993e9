import LayoutMarkup.Proofs.Layout.SpanOrder

/-! What a conversion leaves alone. Failing or not, it changes nothing in a template but the attribute
lists of elements with a tag that is converted. From these it takes attributes with the names of its
entries; the rest keep their order, only the value of a class may be another, and only a class may be
new. -/

namespace LayoutMarkup

namespace Template

variable {ε : Type} {rule : Head.Rule ε} {template : Template}

/-- Without repetitions, a traversal that may have failed has left a node as it was or has applied the
rule to it once. -/
theorem get?_applyEach_of_nodup {ids : List NodeId} (once : ids.Nodup) (id : NodeId) :
    (applyEach rule ids template).1.get? id = template.get? id ∨
      (applyEach rule ids template).1.get? id = (template.get? id).map (Node.ruled rule) := by
  induction ids generalizing template with
  | nil => exact .inl rfl
  | cons first ids ih =>
    obtain ⟨fresh, once⟩ := List.nodup_cons.mp once
    have visited := get?_applyAt rule template first id
    by_cases same : id = first
    · subst id
      rw [if_pos rfl] at visited
      rw [applyEach_cons]
      split
      · exact .inr visited
      · rw [get?_applyEach_of_not_mem _ _ _ fresh]
        exact .inr visited
    · rw [if_neg same] at visited
      rw [applyEach_cons]
      split
      · exact .inl visited
      · rw [← visited]
        exact ih once

end Template

/-- How attributes may come out when a class is written: as they are, with another value in the first
`class`, or, if there is none, with a made one behind them. -/
inductive WithClass : List Attribute → List Attribute → Prop
  | same (attributes : List Attribute) : WithClass attributes attributes
  | changed (first : List Attribute) (attr : Attribute) (last : List Attribute) (value : AttributeValue)
      (own : attr.name = "class") (others : ∀ other ∈ first, other.name ≠ "class") :
      WithClass (first ++ attr :: last) (first ++ { attr with value } :: last)
  | added (attributes : List Attribute) (classes : String)
      (absent : ∀ attr ∈ attributes, attr.name ≠ "class") :
      WithClass attributes (attributes ++ [.made "class" classes])

/-- Attributes that are not called `class` stay when a class is written. -/
theorem WithClass.filter_eq {before after : List Attribute} (written : WithClass before after)
    {view : Attribute → Bool} (free : ∀ attr, attr.name = "class" → view attr = false) :
    after.filter view = before.filter view := by
  cases written with
  | same => rfl
  | changed first attr last value own _ => simp [free attr own, free { attr with value } own]
  | added _ classes _ => simp [free (.made "class" classes) rfl]

namespace Element

variable {element : Element}

/-- Where a change of the first attribute of a name takes place. -/
theorem exists_split_of_modify {name : String} (present : element.has name = true)
    (change : Attribute → Attribute) :
    ∃ first attr last, element.attributes = first ++ attr :: last ∧ attr.name = name ∧
      (∀ other ∈ first, other.name ≠ name) ∧
      (element.modify name change).attributes = first ++ change attr :: last := by
  have walk : ∀ attrs : List Attribute, name ∈ attrs.map Attribute.name →
      ∃ first attr last, attrs = first ++ attr :: last ∧ attr.name = name ∧
        (∀ other ∈ first, other.name ≠ name) ∧
        modify.go name change attrs = first ++ change attr :: last := by
    intro attrs
    induction attrs with
    | nil => intro member; cases member
    | cons attr rest ih =>
      intro member
      by_cases here : attr.name = name
      · exact ⟨[], attr, rest, rfl, here, by simp, by rw [modify.go, if_pos here]; rfl⟩
      · have later : name ∈ rest.map Attribute.name := by
          simpa [Ne.symm here] using member
        obtain ⟨first, own, last, rfl, named, others, changed⟩ := ih later
        refine ⟨attr :: first, own, last, rfl, named, List.forall_mem_cons.mpr ⟨here, others⟩, ?_⟩
        rw [modify.go, if_neg here, changed]
        rfl
  exact walk element.attributes (has_iff.mp present)

theorem withClass_setClass (element : Element) (classes : String) :
    WithClass element.attributes (element.setClass classes).attributes := by
  unfold setClass
  split
  · rename_i present
    have kept (change : Attribute → Attribute) (valued : ∀ attr, ∃ value, change attr = { attr with value }) :
        WithClass element.attributes (element.modify "class" change).attributes := by
      obtain ⟨first, attr, last, before, own, others, after⟩ := exists_split_of_modify present change
      obtain ⟨value, changed⟩ := valued attr
      rw [before, after, changed]
      exact .changed first attr last value own others
    apply kept
    intro attr
    split <;> exact ⟨_, rfl⟩
  · rename_i absent
    refine .added _ classes fun attr member named => absent (has_iff.mpr ?_)
    exact List.mem_map.mpr ⟨attr, member, named⟩

/-- An attribute with another name stays when one is taken away. -/
theorem filter_remove (element : Element) {name : String} {view : Attribute → Bool}
    (free : ∀ attr, attr.name = name → view attr = false) :
    (element.remove name).attributes.filter view = element.attributes.filter view := by
  unfold remove
  induction element.attributes with
  | nil => rfl
  | cons attr rest ih =>
    by_cases same : attr.name = name
    · simp [same, free attr same]
    · simp [same, List.filter_cons, ih]

theorem filter_removeEach (element : Element) {names : List String} {view : Attribute → Bool}
    (free : ∀ attr, attr.name ∈ names → view attr = false) :
    (element.removeEach names).attributes.filter view = element.attributes.filter view := by
  induction names generalizing element with
  | nil => rfl
  | cons name names ih =>
    rw [removeEach_cons, ih _ fun attr member => free attr (List.mem_cons_of_mem name member)]
    exact element.filter_remove fun attr same => free attr (same ▸ List.mem_cons_self)

end Element

namespace Settings

variable {settings : Settings} {template after : Template} {result : Option LayoutError}

/-- Whether an attribute is neither a class nor one that an entry of the settings could take. -/
def isForeign (settings : Settings) (attr : Attribute) : Bool :=
  attr.name ≠ "class" && !settings.layoutNames.contains attr.name

/-- What a conversion may do to the attributes of an element. -/
structure Frames (settings : Settings) (before after : List Attribute) : Prop where
  /-- Foreign attributes stay as they are and in their order. -/
  foreign : after.filter settings.isForeign = before.filter settings.isForeign
  /-- Only attributes with the names of entries go; of what is left, only a class differs. -/
  written : ∃ kept, kept.Sublist before ∧
    kept.filter (fun attr => !settings.layoutNames.contains attr.name) =
      before.filter (fun attr => !settings.layoutNames.contains attr.name) ∧
    WithClass kept after

/-- What a conversion may make of a node. -/
inductive Keeps (settings : Settings) : Node → Node → Prop
  | same (node : Node) : settings.Keeps node node
  | attributes (element : Element) (attributes : List Attribute) (children : List NodeId)
      (converts : settings.converts element.tag = true)
      (frames : settings.Frames element.attributes attributes) :
      settings.Keeps (.branch (.element element) children)
        (.branch (.element { element with attributes }) children)

theorem frames_convert (settings : Settings) (element : Element) :
    settings.Frames element.attributes (settings.convert element).1.attributes := by
  obtain ⟨names, first, collected⟩ := exists_removeEach_collect settings element
  have listed (attr : Attribute) (member : attr.name ∈ names) :
      settings.layoutNames.contains attr.name = true :=
    List.contains_iff_mem.mpr (first.subset member)
  have written : WithClass (element.removeEach names).attributes
      (settings.convert element).1.attributes := by
    simp only [convert, Conversion.result, collected]
    split
    · exact .same _
    · exact Element.withClass_setClass _ _
  refine ⟨?_, _, element.sublist_removeEach names, ?_, written⟩
  · rw [written.filter_eq fun attr own => by simp [isForeign, own]]
    apply element.filter_removeEach
    intro attr member
    simp [isForeign, first.subset member]
  · apply element.filter_removeEach
    intro attr member
    rw [listed attr member]
    rfl

theorem keeps_converted (settings : Settings) (node : Node) :
    settings.Keeps node (settings.converted node) := by
  match node with
  | .leaf content => exact .same _
  | .branch (.program span) children => exact .same _
  | .branch (.block block) children => exact .same _
  | .branch (.element element) children =>
    rw [converted]
    split
    · rename_i converts
      rw [convert_eq_with_attributes]
      exact .attributes element _ children converts (settings.frames_convert element)
    · exact .same _

/-- A conversion of what was read, failing or not, keeps at every id the node that is there up to the
attributes of an element with a tag that is converted. Of these it keeps all that are neither a class
nor named by an entry, takes only such as entries name, and writes nothing but a class. -/
theorem keeps_of_conversion {source : String} (read : Template.read source = .ok template)
    (run : settings.conversion.run template = (after, result)) :
    after.size = template.size ∧
      ∀ id, Option.Rel settings.Keeps (template.get? id) (after.get? id) := by
  have tree := Template.isTree_of_read read
  refine ⟨(isTree_of_run tree run).2, fun id => ?_⟩
  have visited : after.get? id = template.get? id ∨
      after.get? id = (template.get? id).map (Node.ruled settings.conversionRule) := by
    have once := Template.nodup_descendants_of_isTree tree
    have either := @Template.get?_applyEach_of_nodup _ settings.conversionRule template _ once id
    rwa [show Template.applyEach settings.conversionRule template.descendants template =
      (after, result) from run] at either
  rcases visited with untouched | ruled
  · rw [untouched]
    cases template.get? id with
    | none => exact .none
    | some node => exact .some (.same node)
  · rw [ruled]
    cases template.get? id with
    | none => exact .none
    | some node =>
      refine .some ?_
      rw [ruled_conversion]
      exact settings.keeps_converted node

/-- A box with `fit` twice and a term that is refused: the first `fit` is gone, and all else has stayed. -/
theorem keeps_of_conversion_of_repeated_term :
    let settings := ofProject .empty
    ∃ template after error,
      Template.read "<box fit id='a' fit x align='middle'></box>" = .ok template ∧
      settings.conversion.run template = (after, some error) ∧
      (after.element? 1).map Element.names = some ["id", "fit", "x", "align"] ∧
      after.size = template.size ∧
      ∀ id, Option.Rel settings.Keeps (template.get? id) (after.get? id) := by
  intro settings
  have facts : (Template.read "<box fit id='a' fit x align='middle'></box>").toOption.any
      (fun template =>
        let outcome := settings.conversion.run template
        outcome.2.isSome &&
          (outcome.1.element? 1).map Element.names = some ["id", "fit", "x", "align"]) = true := by
    decide +kernel
  obtain ⟨template, read, checked⟩ := Template.exists_of_any facts
  simp only [Bool.and_eq_true, decide_eq_true_eq] at checked
  obtain ⟨failed, names⟩ := checked
  obtain ⟨error, failed⟩ := Option.isSome_iff_exists.mp failed
  have run : settings.conversion.run template =
      ((settings.conversion.run template).1, some error) := Prod.ext rfl failed
  exact ⟨template, _, error, read, run, names, keeps_of_conversion read run⟩

end Settings

end LayoutMarkup
