import LayoutMarkup.Proofs.Layout.Components
import LayoutMarkup.Proofs.Layout.Frame

/-! Naming schemes. The names that a scheme gives end up in the texts of classes. They are looked at
nowhere: entries ask whether there are classes and never what these are called, and the making of
components looks for other names. So two schemes cannot be told apart but by the texts of classes. -/

namespace LayoutMarkup

/-- A text with nothing in it. -/
def Text.emptied (literal : Text) : Text := { literal with chars := "" }

def Part.withoutText : Part → Part
  | .text literal => .text literal.emptied
  | .mustache call => .mustache call

namespace AttributeValue

/-- A value with its mustaches alone. -/
def withoutText : AttributeValue → AttributeValue
  | .text literal => .text literal.emptied
  | .mustache call => .mustache call
  | .concat parts span => .concat (parts.map Part.withoutText) span

end AttributeValue

namespace Expression

/-- The argument that a value without its text becomes. -/
def withoutText : Expression → Expression
  | .string _ span => .string "" span
  | .concat parts span => .concat (parts.map Part.withoutText) span
  | other => other

theorem withSpan_withoutText (value : Expression) (span : Span) :
    value.withoutText.withSpan span = (value.withSpan span).withoutText := by
  cases value <;> rfl

theorem span_withoutText (value : Expression) : value.withoutText.span = value.span := by
  cases value <;> rfl

end Expression

theorem AttributeValue.toExpression_withoutText (value : AttributeValue) :
    value.withoutText.toExpression = value.toExpression.withoutText := by
  cases value with
  | text literal => rfl
  | concat parts span => rfl
  | mustache call =>
    simp only [withoutText, toExpression]
    split <;> rfl

/-! ### What is left without the texts of classes -/

def Attribute.withoutClassText (attr : Attribute) : Attribute :=
  if attr.name = "class" then { attr with value := attr.value.withoutText } else attr

def Pair.withoutClassText (pair : Pair) : Pair :=
  if pair.key = "class" then { pair with value := pair.value.withoutText } else pair

def Element.withoutClassText (element : Element) : Element :=
  { element with attributes := element.attributes.map Attribute.withoutClassText }

def Hash.withoutClassText (hash : Hash) : Hash :=
  { hash with pairs := hash.pairs.map Pair.withoutClassText }

def Block.withoutClassText (block : Block) : Block :=
  { block with hash := block.hash.map Hash.withoutClassText }

def Head.withoutClassText : Head → Head
  | .program span => .program span
  | .element el => .element el.withoutClassText
  | .block inner => .block inner.withoutClassText

/-- The node with all texts of its classes emptied. -/
def Node.withoutClassText (node : Node) : Node := node.mapHead Head.withoutClassText

/-- Whether a node has a class: an element as an attribute, a block as an argument. -/
def Node.hasClass : Node → Bool
  | .branch (.element element) _ => element.has "class"
  | .branch (.block block) _ => block.hash.any fun hash => (hash.get? "class").isSome
  | _ => false

@[simp] theorem Attribute.name_withoutClassText (attr : Attribute) :
    attr.withoutClassText.name = attr.name := by
  unfold withoutClassText
  split <;> rfl

@[simp] theorem Pair.key_withoutClassText (pair : Pair) : pair.withoutClassText.key = pair.key := by
  unfold withoutClassText
  split <;> rfl

@[simp] theorem Pair.span_withoutClassText (pair : Pair) : pair.withoutClassText.span = pair.span := by
  unfold withoutClassText
  split <;> rfl

namespace Element

variable {element : Element}

theorem has_withoutClassText (element : Element) (name : String) :
    element.withoutClassText.has name = element.has name := by
  simp only [has, get?, withoutClassText, List.find?_map, Function.comp_def, Option.isSome_map,
    Attribute.name_withoutClassText]

theorem isComponent_withoutClassText (element : Element) :
    element.withoutClassText.isComponent = element.isComponent := by
  rw [isComponent, has_withoutClassText, isComponent]
  rfl

/-- Changes that leave the same up to the texts of classes do so wherever they are made. -/
theorem withoutClassText_modify {one other : Attribute → Attribute}
    (same : ∀ attr, attr.name = "class" →
      (other attr).withoutClassText = (one attr).withoutClassText) (element : Element) :
    (element.modify "class" other).withoutClassText =
      (element.modify "class" one).withoutClassText := by
  have walk : ∀ attrs : List Attribute,
      (modify.go "class" other attrs).map Attribute.withoutClassText =
        (modify.go "class" one attrs).map Attribute.withoutClassText := by
    intro attrs
    induction attrs with
    | nil => rfl
    | cons attr rest ih =>
      rw [modify.go, modify.go]
      split
      · rename_i named
        rw [List.map_cons, List.map_cons, same attr named]
      · rw [List.map_cons, List.map_cons, ih]
  simp only [modify, withoutClassText, walk]

/-- Whatever class is written, it is written to the same place. -/
theorem withoutClassText_setClass (element : Element) (one other : String) :
    (element.setClass other).withoutClassText = (element.setClass one).withoutClassText := by
  unfold setClass
  split
  · apply withoutClassText_modify
    intro ⟨name, value, span⟩ (named : name = "class")
    cases value <;>
      simp [Attribute.withoutClassText, named, AttributeValue.withoutText, Part.withoutText,
        Text.emptied, Text.made]
  · simp [withoutClassText, push, Attribute.made, Attribute.withoutClassText,
      AttributeValue.withoutText, Text.emptied, Text.made]

end Element

/-! ### Components -/

theorem Attribute.toPair_withoutClassText (attr : Attribute) (line : Nat) :
    attr.withoutClassText.toPair line = (attr.toPair line).withoutClassText := by
  by_cases named : attr.name = "class"
  · simp [withoutClassText, Pair.withoutClassText, toPair, named,
      AttributeValue.toExpression_withoutText, Expression.withSpan_withoutText,
      Expression.span_withoutText]
  · simp [withoutClassText, Pair.withoutClassText, toPair, named]

theorem Hash.ofPairs_withoutClassText (pairs : List Pair) :
    ofPairs (pairs.map Pair.withoutClassText) = (ofPairs pairs).withoutClassText := by
  simp only [ofPairs, List.head?_map, List.getLast?_map]
  cases pairs.head? <;> cases pairs.getLast? <;> simp [withoutClassText]

theorem Element.toBlock_withoutClassText (element : Element) :
    element.withoutClassText.toBlock = element.toBlock.withoutClassText := by
  have pairs : element.withoutClassText.attributes.map (Attribute.toPair · element.span.start.line) =
      (element.attributes.map (Attribute.toPair · element.span.start.line)).map
        Pair.withoutClassText := by
    simp [withoutClassText, Attribute.toPair_withoutClassText]
  have line : element.withoutClassText.span = element.span := rfl
  simp only [toBlock, line, pairs, Hash.ofPairs_withoutClassText, List.isEmpty_map,
    Block.withoutClassText, apply_ite (Option.map Hash.withoutClassText)]
  rfl

namespace Node

theorem assembled_withoutClassText (node : Node) :
    node.withoutClassText.assembled = node.assembled.withoutClassText := by
  cases node with
  | leaf content => rfl
  | branch head children =>
    cases head with
    | program span => rfl
    | block block => rfl
    | element element =>
      simp only [withoutClassText, mapHead, Head.withoutClassText, assembled,
        element.isComponent_withoutClassText, element.toBlock_withoutClassText]
      split <;> rfl

theorem assembled_of_no_element {node : Node} (plain : node.element? = none) : node.assembled = node := by
  cases node with
  | leaf content => rfl
  | branch head children => cases head <;> first | rfl | cases plain

theorem hasClass_withoutClassText (node : Node) : node.withoutClassText.hasClass = node.hasClass := by
  cases node with
  | leaf content => rfl
  | branch head children =>
    cases head with
    | program span => rfl
    | element element => exact element.has_withoutClassText "class"
    | block block =>
      obtain ⟨path, params, hash, body, span⟩ := block
      cases hash with
      | none => rfl
      | some hash =>
        simp only [withoutClassText, mapHead, Head.withoutClassText, Block.withoutClassText, hasClass,
          Hash.get?, Hash.withoutClassText, Option.map_some, Option.any_some, Option.isSome_map,
          List.find?_map, Function.comp_def, Pair.key_withoutClassText]

end Node

/-! ### Conversions -/

/-- The same settings with another naming scheme. -/
def Settings.withNames (settings : Settings) (names : ClassNames) : Settings :=
  { settings with classNames := names }

/-- Conversions that differ at most in what their classes are called. -/
structure Conversion.IsRenaming (first second : Conversion) : Prop where
  element : second.element = first.element
  origins : second.entries.map ClassEntry.origin = first.entries.map ClassEntry.origin
  refusal : second.refusal = first.refusal

namespace Conversion.IsRenaming

variable {first second : Conversion}

theorem after (renamed : first.IsRenaming second) {one other : List ClassEntry}
    (origins : other.map ClassEntry.origin = one.map ClassEntry.origin) :
    (first.after one).IsRenaming (second.after other) := by
  refine ⟨renamed.element, ?_, renamed.refusal⟩
  rw [entries_after, entries_after, List.map_append, List.map_append, origins, renamed.origins]

/-- Whether there are classes to be written is the same, and so is where they go. -/
theorem result (renamed : first.IsRenaming second) :
    second.result.withoutClassText = first.result.withoutClassText := by
  have empty : second.entries.isEmpty = first.entries.isEmpty := by
    have same := congrArg List.isEmpty renamed.origins
    rwa [List.isEmpty_map, List.isEmpty_map] at same
  unfold Conversion.result
  rw [renamed.refusal, renamed.element, empty]
  split
  · rfl
  · exact Element.withoutClassText_setClass _ _ _

end Conversion.IsRenaming

namespace Settings

variable (settings : Settings) (names : ClassNames)

/-- A token stands for a class from the same origin or is refused as before. -/
theorem tokenClass_withNames (breakpoint : Breakpoint) (token : List Char) :
    ((settings.withNames names).tokenClass breakpoint token).map ClassEntry.origin =
      (settings.tokenClass breakpoint token).map ClassEntry.origin := by
  have columns : (settings.withNames names).columns = settings.columns := rfl
  have simple : ∀ name, (settings.withNames names).simpleResponder? name =
      settings.simpleResponder? name := fun _ => rfl
  have complex : ∀ name, (settings.withNames names).complexResponder? name =
      settings.complexResponder? name := fun _ => rfl
  unfold tokenClass
  split
  · unfold columnClass
    rw [columns]
    split <;> rfl
  · dsimp only
    rw [simple]
    split
    · unfold valueClass
      rw [complex]
      split
      · rfl
      · split <;> rfl
    · split
      · rfl
      · split
        · split
          · unfold offsetClass
            rw [columns]
            split <;> rfl
          · rfl
        · rfl

theorem tokenClasses_withNames (breakpoint : Breakpoint) (tokens : List (List Char)) :
    let other := (settings.withNames names).tokenClasses breakpoint tokens
    let own := settings.tokenClasses breakpoint tokens
    other.1.map ClassEntry.origin = own.1.map ClassEntry.origin ∧ other.2 = own.2 := by
  induction tokens with
  | nil => exact ⟨rfl, rfl⟩
  | cons token tokens ih =>
    obtain ⟨origins, refusal⟩ := ih
    have first := settings.tokenClass_withNames names breakpoint token
    rw [tokenClasses, tokenClasses]
    cases own : settings.tokenClass breakpoint token with
    | error complaint =>
      rw [own] at first
      rw [Except.map_eq_error first]
      exact ⟨rfl, rfl⟩
    | ok entry =>
      rw [own] at first
      obtain ⟨named, other, origin⟩ := Except.map_eq_ok first
      rw [other]
      exact ⟨congrArg₂ List.cons origin origins, refusal⟩

theorem answer_withNames (entry : Entry) (value : AttributeValue) :
    let other := (settings.withNames names).answer entry value
    let own := settings.answer entry value
    other.1.map ClassEntry.origin = own.1.map ClassEntry.origin ∧ other.2 = own.2 := by
  cases entry with
  | term term =>
    simp only [answer]
    cases term.setting? value with
    | none => exact ⟨rfl, rfl⟩
    | some setting => exact ⟨rfl, rfl⟩
  | breakpoint breakpoint =>
    simp only [answer]
    cases value.chars? with
    | none => exact ⟨rfl, rfl⟩
    | some chars => exact settings.tokenClasses_withNames names breakpoint _

theorem outcome_withNames (element : Element) (entry : Entry) :
    let other := (settings.withNames names).outcome element entry
    let own := settings.outcome element entry
    other.1.map ClassEntry.origin = own.1.map ClassEntry.origin ∧ other.2 = own.2 := by
  simp only [outcome]
  cases element.get? entry.name with
  | none => exact ⟨rfl, rfl⟩
  | some attr => exact settings.answer_withNames names entry attr.value

/-- Entry after entry takes the same attribute for as many classes, or the same one refuses. -/
theorem convertEntries_withNames (entries : List Entry) (element : Element) :
    (settings.convertEntries entries element).IsRenaming
      ((settings.withNames names).convertEntries entries element) := by
  induction entries generalizing element with
  | nil => exact ⟨rfl, rfl, rfl⟩
  | cons entry entries ih =>
    obtain ⟨origins, same⟩ := settings.outcome_withNames names element entry
    cases answered : (settings.outcome element entry).2 with
    | some refusal =>
      rw [convertEntries_refused answered, convertEntries_refused (same.trans answered)]
      exact ⟨rfl, origins, rfl⟩
    | none =>
      rw [convertEntries_accepted answered, convertEntries_accepted (same.trans answered)]
      exact (ih (element.remove entry.name)).after origins

theorem collect_withNames (element : Element) :
    (settings.collect element).IsRenaming ((settings.withNames names).collect element) := by
  rw [collect_eq, collect_eq]
  exact (settings.convertEntries_withNames names _ element).after rfl

theorem convert_withNames (element : Element) :
    let other := (settings.withNames names).convert element
    let own := settings.convert element
    other.1.withoutClassText = own.1.withoutClassText ∧ other.2 = own.2 := by
  have renamed := settings.collect_withNames names element
  refine ⟨renamed.result, ?_⟩
  simp only [convert, renamed.refusal]

theorem converted_of_no_element {node : Node} (plain : node.element? = none) :
    settings.converted node = node := by
  cases node with
  | leaf content => rfl
  | branch head children => cases head <;> first | rfl | cases plain

theorem complaint_of_no_element {node : Node} (plain : node.element? = none) :
    node.complaint settings.conversionRule = none := by
  cases node with
  | leaf content => rfl
  | branch head children => cases head <;> first | rfl | cases plain

theorem conversionRule_withNames (node : Node) :
    (node.ruled (settings.withNames names).conversionRule).withoutClassText =
        (node.ruled settings.conversionRule).withoutClassText ∧
      node.complaint (settings.withNames names).conversionRule =
        node.complaint settings.conversionRule := by
  -- The two sides are not left to be compared by unfolding: that would go into both settings.
  have untouched (plain : node.element? = none) := And.intro
    (congrArg Node.withoutClassText (((settings.withNames names).converted_of_no_element plain).trans
      (settings.converted_of_no_element plain).symm))
    (((settings.withNames names).complaint_of_no_element plain).trans
      (settings.complaint_of_no_element plain).symm)
  rw [ruled_conversion, ruled_conversion]
  cases node with
  | leaf content => exact untouched rfl
  | branch head children =>
    cases head with
    | program span => exact untouched rfl
    | block block => exact untouched rfl
    | element element =>
      have converts : (settings.withNames names).converts element.tag = settings.converts element.tag :=
        rfl
      obtain ⟨result, failure⟩ := settings.convert_withNames names element
      simp only [converted, Node.complaint, conversionRule, converts]
      split
      · refine ⟨?_, failure⟩
        simp only [Node.withoutClassText, Node.mapHead, Head.withoutClassText, result]
      · exact ⟨rfl, rfl⟩

end Settings

/-! ### Builds -/

namespace Template

variable {ε α : Type} {rule other : Head.Rule ε} {view : Node → α}

/-- Rules that cannot be told apart on a node, as far as a view on nodes goes, cannot be told apart by a
traversal that comes to each node once. When it comes there, the node is still the same for both. -/
theorem applyEach_of_alike
    (alike : ∀ node : Node, view (node.ruled other) = view (node.ruled rule) ∧
      node.complaint other = node.complaint rule)
    {ids : List NodeId} (once : ids.Nodup) {first second : Template}
    (ahead : ∀ id ∈ ids, second.get? id = first.get? id)
    (same : ∀ id, (second.get? id).map view = (first.get? id).map view) :
    (applyEach other ids second).2 = (applyEach rule ids first).2 ∧
      ∀ id, ((applyEach other ids second).1.get? id).map view =
        ((applyEach rule ids first).1.get? id).map view := by
  induction ids generalizing first second with
  | nil => exact ⟨rfl, same⟩
  | cons id ids ih =>
    obtain ⟨fresh, once⟩ := List.nodup_cons.mp once
    have here := ahead id List.mem_cons_self
    have failure : (second.applyAt other id).2 = (first.applyAt rule id).2 := by
      rw [failure_applyAt, failure_applyAt, here]
      cases first.get? id with
      | none => rfl
      | some node => exact (alike node).2
    have left (place : NodeId) : ((second.applyAt other id).1.get? place).map view =
        ((first.applyAt rule id).1.get? place).map view := by
      rw [get?_applyAt, get?_applyAt]
      split
      · rename_i visited
        rw [visited, here]
        cases first.get? id with
        | none => rfl
        | some node => exact congrArg some (alike node).1
      · exact same place
    rw [applyEach_cons, applyEach_cons, failure]
    split
    · exact ⟨rfl, left⟩
    · refine ih once (fun place member => ?_) left
      have apart : place ≠ id := fun visited => fresh (visited ▸ member)
      rw [get?_applyAt, get?_applyAt, if_neg apart, if_neg apart]
      exact ahead place (List.mem_cons_of_mem id member)

end Template

namespace Settings

variable (settings : Settings) (names : ClassNames) {template : Template}

section

variable (tree : template.IsTree)

include tree

theorem conversion_withNames :
    let other := (settings.withNames names).conversion.run template
    let own := settings.conversion.run template
    other.2 = own.2 ∧
      ∀ id, (other.1.get? id).map Node.withoutClassText = (own.1.get? id).map Node.withoutClassText :=
  Template.applyEach_of_alike (settings.conversionRule_withNames names) (Template.nodup_descendants_of_isTree tree)
    (fun _ _ => rfl) fun _ => rfl

/-- After a conversion without a failure, a build leaves what is assembled of the nodes. -/
theorem get?_build_of_accepted (accepted : (settings.conversion.run template).2 = none) (id : NodeId) :
    (settings.build template).1.get? id =
      ((settings.conversion.run template).1.get? id).map Node.assembled := by
  have left : (settings.conversion.run template).1.IsTree :=
    Template.isTree_transform tree settings.conversionRule
  have made : Pass.component.run (settings.conversion.run template).1 =
      ((Pass.component.run (settings.conversion.run template).1).1, none) :=
    Prod.ext rfl (component_accepted _ _)
  rw [build_of_accepted accepted, Template.get?_of_transform left made]
  congr 1
  exact funext Node.ruled_component

theorem build_withNames :
    let other := (settings.withNames names).build template
    let own := settings.build template
    other.2 = own.2 ∧
      ∀ id, (other.1.get? id).map Node.withoutClassText = (own.1.get? id).map Node.withoutClassText := by
  obtain ⟨failure, left⟩ := settings.conversion_withNames names tree
  cases answered : (settings.conversion.run template).2 with
  | some error =>
    rw [build_of_refused answered, build_of_refused (failure.trans answered)]
    exact ⟨failure, left⟩
  | none =>
    have accepted := failure.trans answered
    refine ⟨by rw [build_of_accepted answered, build_of_accepted accepted], fun id => ?_⟩
    have assembled (node : Option Node) : (node.map Node.assembled).map Node.withoutClassText =
        (node.map Node.withoutClassText).map Node.assembled := by
      simp only [Option.map_map, Function.comp_def, Node.assembled_withoutClassText]
    rw [get?_build_of_accepted _ tree answered, get?_build_of_accepted _ tree accepted, assembled,
      assembled, left id]

/-- Nodes that are no elements are the same afterwards. -/
theorem get?_build_of_no_element {id : NodeId} (plain : template.element? id = none) :
    (settings.build template).1.get? id = template.get? id := by
  have kept (change : Node → Node) (same : ∀ node, node.element? = none → change node = node) :
      (template.get? id).map change = template.get? id := by
    cases found : template.get? id with
    | none => rfl
    | some node =>
      rw [Template.element?, found] at plain
      exact congrArg some (same node plain)
  have converted : (settings.conversion.run template).1.get? id = template.get? id := by
    have visited : (settings.conversion.run template).1.get? id = template.get? id ∨
        (settings.conversion.run template).1.get? id =
          (template.get? id).map (Node.ruled settings.conversionRule) :=
      Template.get?_applyEach_of_nodup (Template.nodup_descendants_of_isTree tree) id
    rcases visited with same | ruled
    · exact same
    · refine ruled.trans (kept _ fun node plain => ?_)
      rw [ruled_conversion, converted_of_no_element settings plain]
  cases answered : (settings.conversion.run template).2 with
  | some error => rw [build_of_refused answered, converted]
  | none =>
    rw [get?_build_of_accepted _ tree answered, converted]
    exact kept _ fun _ => Node.assembled_of_no_element

end

/-- Two naming schemes, whatever they say, are told apart by the texts of classes alone. On anything that
was read, a build fails with both or with neither, with the same error at the same place. It leaves, failing
or not, the same nodes up to the texts of `class`, as an attribute or as an argument, which the same nodes
have; and it leaves everything that was no element as it was. -/
theorem build_same_but_class_text {source : String} (read : Template.read source = .ok template) :
    let other := (settings.withNames names).build template
    let own := settings.build template
    other.2 = own.2 ∧
    (∀ id, (other.1.get? id).map Node.withoutClassText = (own.1.get? id).map Node.withoutClassText) ∧
    (∀ id, (other.1.get? id).map Node.hasClass = (own.1.get? id).map Node.hasClass) ∧
    ∀ id, template.element? id = none →
      other.1.get? id = template.get? id ∧ own.1.get? id = template.get? id := by
  have tree := Template.isTree_of_read read
  obtain ⟨failure, same⟩ := settings.build_withNames names tree
  refine ⟨failure, same, fun id => ?_, fun id plain => ?_⟩
  · have seen (node : Option Node) :
        (node.map Node.withoutClassText).map Node.hasClass = node.map Node.hasClass := by
      simp only [Option.map_map, Function.comp_def, Node.hasClass_withoutClassText]
    rw [← seen, same id, seen]
  · exact ⟨get?_build_of_no_element _ tree plain, get?_build_of_no_element _ tree plain⟩

/-- A scheme without names in the place of the one that is built in: the container is a call with a class
and the box in it has one under both, only with nothing in them under the other. -/
theorem build_same_but_class_text_of_no_names :
    let settings := ofProject ((Project.empty.withColumns 12).withBreakpoint ⟨"sm", none, none⟩)
    let names : ClassNames :=
      ⟨fun _ _ _ _ => "", fun _ _ _ _ => "", fun _ _ _ => "", fun _ _ => ""⟩
    let classAt (template : Template) (id : NodeId) : Option String :=
      (template.element? id).bind (·.get? "class") |>.bind fun attr => attr.value.chars?
    ∃ template,
      Template.read "<container sm='6'><box wrap></box></container>" = .ok template ∧
      (settings.build template).2 = none ∧ ((settings.withNames names).build template).2 = none ∧
      (∀ id, (((settings.withNames names).build template).1.get? id).map Node.withoutClassText =
        ((settings.build template).1.get? id).map Node.withoutClassText) ∧
      (((settings.withNames names).build template).1.get? 2).map Node.hasClass = some true ∧
      classAt (settings.build template).1 1 = some "flexi-wrap" ∧
      classAt ((settings.withNames names).build template).1 1 = some "" := by
  intro settings names classAt
  have facts : (Template.read "<container sm='6'><box wrap></box></container>").toOption.any
      (fun template =>
        (settings.build template).2 = none &&
          ((settings.build template).1.get? 2).map Node.hasClass = some true &&
          classAt (settings.build template).1 1 = some "flexi-wrap" &&
          classAt ((settings.withNames names).build template).1 1 = some "") = true := by
    decide +kernel
  obtain ⟨template, read, checked⟩ := Template.exists_of_any facts
  simp only [Bool.and_eq_true, decide_eq_true_eq] at checked
  obtain ⟨⟨⟨accepted, classed⟩, named⟩, unnamed⟩ := checked
  obtain ⟨failure, same, present, -⟩ := settings.build_same_but_class_text names read
  exact ⟨template, read, accepted, failure.trans accepted, same, (present 2).trans classed, named,
    unnamed⟩

end Settings

end LayoutMarkup
