import LayoutMarkup.Proofs.Layout.Pointwise
import LayoutMarkup.Proofs.Template.Placement

/-! Spans after a build. A build keeps the start of every span no later than its end, with one
exception. The class that a conversion writes where the source has none was made and not read; if the
element becomes a component, the class is the last of its arguments, and their hash would have to reach
from a place in the source to no place at all. -/

namespace LayoutMarkup

/-- The span of whatever was made, or one that starts no later than it ends. -/
def Span.IsWellFormed (span : Span) : Prop := span = .nowhere ∨ ¬ span.stop.Before span.start

theorem Span.isWellFormed_iff {span : Span} : span.IsWellFormed ↔ span.IsOrdered := by
  constructor
  · rintro (rfl | ordered)
    · exact Position.upTo_refl _
    · exact ordered
  · exact .inr

namespace Position

variable {position : Position}

/-- No place in a source comes before the place of what was made. -/
theorem not_upTo_nowhere (begun : start.UpTo position) : ¬ position.UpTo nowhere := by
  have positive := line_pos begun
  unfold UpTo Before nowhere
  simp only
  omega

theorem line_shift (position : Position) (line : Nat) : (position.shift line).line = position.line := by
  unfold shift
  split <;> rfl

theorem column_shift (position : Position) (line : Nat) : (position.shift line).column =
    if position.line = line then position.column + componentShift else position.column := by
  unfold shift
  split <;> rfl

theorem upTo_shift (position : Position) (line : Nat) : position.UpTo (position.shift line) := by
  unfold UpTo Before
  rw [line_shift, column_shift]
  split <;> omega

end Position

/-- A shift along one line keeps the order of places. -/
theorem Position.UpTo.shift {first second : Position} (ordered : first.UpTo second) (line : Nat) :
    (first.shift line).UpTo (second.shift line) := by
  unfold UpTo Before at *
  simp only [Position.line_shift, Position.column_shift]
  split <;> split <;> omega

theorem Span.IsOrdered.shift {span : Span} (ordered : span.IsOrdered) (line : Nat) :
    (span.shift line).IsOrdered := Position.UpTo.shift ordered line

/-- What was made is on no line of a source, and so is not shifted. -/
theorem Span.shift_nowhere {line : Nat} (positive : 0 < line) : Span.nowhere.shift line = .nowhere := by
  have other : Position.nowhere.line ≠ line := Nat.ne_of_lt positive
  simp [Span.shift, Position.shift, Span.nowhere, other]

theorem Call.span_mem_spans (call : Call) : call.span ∈ call.spans := by
  cases call
  exact List.mem_cons_self

theorem partsSpans_append (first second : List Part) :
    partsSpans (first ++ second) = partsSpans first ++ partsSpans second := by
  induction first with
  | nil => rfl
  | cons part rest ih => cases part <;> simp [partsSpans, ih]

namespace Expression

theorem span_mem_spans (value : Expression) : value.span ∈ value.spans := by
  cases value with
  | call inner => exact inner.span_mem_spans
  | path name => exact List.mem_cons_self
  | string value span => exact List.mem_cons_self
  | number value span => exact List.mem_cons_self
  | boolean value span => exact List.mem_cons_self
  | concat parts span => exact List.mem_cons_self

theorem spansAreOrdered_withSpan {value : Expression} {span : Span} (own : span.IsOrdered)
    (ordered : SpansAreOrdered value.spans) : SpansAreOrdered (value.withSpan span).spans := by
  cases value with
  | call inner =>
    obtain ⟨path, params, hash, old⟩ := inner
    exact spansAreOrdered_cons.mpr ⟨own, (spansAreOrdered_cons.mp ordered).2⟩
  | path name => exact spansAreOrdered_cons.mpr ⟨own, spansAreOrdered_nil⟩
  | string value old => exact spansAreOrdered_cons.mpr ⟨own, spansAreOrdered_nil⟩
  | number value old => exact spansAreOrdered_cons.mpr ⟨own, spansAreOrdered_nil⟩
  | boolean value old => exact spansAreOrdered_cons.mpr ⟨own, spansAreOrdered_nil⟩
  | concat parts old => exact spansAreOrdered_cons.mpr ⟨own, (spansAreOrdered_cons.mp ordered).2⟩

end Expression

theorem AttributeValue.spansAreOrdered_toExpression {value : AttributeValue}
    (ordered : SpansAreOrdered value.spans) : SpansAreOrdered value.toExpression.spans := by
  cases value with
  | text literal => exact ordered
  | concat parts span => exact ordered
  | mustache call =>
    simp only [toExpression]
    split
    · obtain ⟨path, params, hash, span⟩ := call
      obtain ⟨named, -⟩ := spansAreOrdered_cons.mp (spansAreOrdered_cons.mp ordered).2
      exact spansAreOrdered_cons.mpr ⟨named, spansAreOrdered_nil⟩
    · exact ordered

/-- The arguments that attributes become have no other spans than shifted and kept ones. -/
theorem pairsSpans_toPair {attrs : List Attribute} (line : Nat)
    (ordered : ∀ attr ∈ attrs, SpansAreOrdered attr.spans) :
    SpansAreOrdered (pairsSpans (attrs.map (Attribute.toPair · line))) := by
  induction attrs with
  | nil => exact spansAreOrdered_nil
  | cons attr rest ih =>
    obtain ⟨here, others⟩ := List.forall_mem_cons.mp ordered
    obtain ⟨own, value⟩ := spansAreOrdered_cons.mp here
    have kept := AttributeValue.spansAreOrdered_toExpression value
    have shifted := (kept _ attr.value.toExpression.span_mem_spans).shift line
    rw [List.map_cons, Attribute.toPair, pairsSpans, spansAreOrdered_cons, spansAreOrdered_append]
    exact ⟨own.shift line, Expression.spansAreOrdered_withSpan shifted kept, ih others⟩

theorem map_span_toPair (attrs : List Attribute) (line : Nat) :
    (attrs.map (Attribute.toPair · line)).map Pair.span =
      (attrs.map Attribute.span).map (Span.shift · line) := by
  simp [Attribute.toPair]

namespace Element

variable {element : Element}

theorem hash_toBlock {hash : Hash} (found : element.toBlock.hash = some hash) :
    hash = .ofPairs (element.attributes.map (Attribute.toPair · element.span.start.line)) := by
  simp only [toBlock] at found
  split at found
  · cases found
  · exact (Option.some.inj found).symm

/-- Of the spans in a component only the one of its hash may be out of order. -/
theorem isOrdered_of_mem_toBlock (own : element.span.IsOrdered)
    (attributes : ∀ attr ∈ element.attributes, SpansAreOrdered attr.spans) {span : Span}
    (member : span ∈ element.toBlock.spans) :
    span.IsOrdered ∨ element.toBlock.hash.map Hash.span = some span := by
  have stretched : element.toBlock.span.IsOrdered := by
    unfold Span.IsOrdered Position.UpTo Position.Before at *
    simp only [toBlock]
    omega
  have made : Span.nowhere.IsOrdered := Position.upTo_refl _
  simp only [Block.spans, List.mem_cons] at member
  rcases member with rfl | rfl | rfl | inside
  · exact .inl stretched
  · exact .inl made
  · exact .inl made
  · rcases List.mem_append.mp inside with none | named
    · cases none
    · cases found : element.toBlock.hash with
      | none =>
        rw [found] at named
        cases named
      | some hash =>
        have shape := (hash_toBlock found).trans (Hash.ofPairs_eq _)
        rw [found, shape] at named
        rcases List.mem_cons.mp named with rfl | deeper
        · exact .inr (by rw [Option.map_some, shape])
        · exact .inl (pairsSpans_toPair _ attributes span deeper)

/-- The hash of a component is in order when the attributes are. -/
theorem isOrdered_hash {first last : Position} {hash : Hash}
    (ordered : InOrder first (element.attributes.map Attribute.span) last)
    (found : element.toBlock.hash = some hash) : hash.span.IsOrdered := by
  have shifted := ordered.map fun _ _ before => Position.UpTo.shift before element.span.start.line
  have pairs : InOrder (first.shift element.span.start.line)
      ((element.attributes.map (Attribute.toPair · element.span.start.line)).map Pair.span)
      (last.shift element.span.start.line) := by
    rw [map_span_toPair]
    exact shifted
  rw [hash_toBlock found]
  exact Hash.isOrdered_ofPairs pairs

/-- The hash of a component is out of order when its first attribute was read and its last was not. -/
theorem not_isOrdered_hash {first : Attribute} {rest : List Attribute} {name chars : String}
    (attributes : element.attributes = first :: rest ++ [.made name chars])
    (begun : Position.start.UpTo element.span.start)
    (behind : Position.start.UpTo first.span.start) :
    ∃ hash, element.toBlock.hash = some hash ∧ ¬ hash.span.IsOrdered := by
  let line := element.span.start.line
  have positive : 0 < line := Position.line_pos begun
  refine ⟨.ofPairs (element.attributes.map (Attribute.toPair · line)), ?_, ?_⟩
  · simp [toBlock, attributes, line]
  · have head : (element.attributes.map (Attribute.toPair · line)).head? =
        some (first.toPair line) := by simp [attributes]
    have final : (element.attributes.map (Attribute.toPair · line)).getLast? =
        some (Attribute.toPair (.made name chars) line) := by
      rw [attributes, List.map_append]
      exact List.getLast?_concat
    have made : (Attribute.toPair (.made name chars) line).span = .nowhere :=
      Span.shift_nowhere positive
    simp only [Hash.ofPairs, head, final, made]
    exact Position.not_upTo_nowhere (behind.trans (Position.upTo_shift _ _))

end Element

/-- The conversion of an element writes a class behind attributes that were read, and the element becomes
a component. -/
structure Settings.AddsClassBeside (settings : Settings) (element : Element) : Prop where
  converts : settings.converts element.tag = true
  accepted : (settings.collect element).refusal = none
  written : (settings.collect element).entries ≠ []
  absent : (settings.collect element).element.has "class" = false
  beside : (settings.collect element).element.attributes ≠ []
  component : (settings.convert element).1.isComponent = true

namespace Element

variable {element : Element}

theorem sublist_removeEach (element : Element) (names : List String) :
    (element.removeEach names).attributes.Sublist element.attributes := by
  induction names generalizing element with
  | nil => exact List.Sublist.refl _
  | cons name names ih =>
    rw [removeEach_cons]
    exact (ih (element.remove name)).trans List.eraseP_sublist

theorem spansAreOrdered_made (name chars : String) : SpansAreOrdered (Attribute.made name chars).spans :=
  spansAreOrdered_cons.mpr
    ⟨Position.upTo_refl _, spansAreOrdered_cons.mpr ⟨Position.upTo_refl _, spansAreOrdered_nil⟩⟩

/-- A class that was there keeps its place, and one that was not stands behind all attributes. -/
theorem attributes_setClass (element : Element) (classes : String) :
    (element.has "class" = true ∧
        (element.setClass classes).attributes.map Attribute.span =
          element.attributes.map Attribute.span) ∨
      (element.has "class" = false ∧
        (element.setClass classes).attributes = element.attributes ++ [.made "class" classes]) := by
  unfold setClass
  split
  · rename_i present
    refine .inl ⟨present, ?_⟩
    apply map_attributes_modify
    intro attr
    split <;> rfl
  · rename_i absent
    exact .inr ⟨by simpa using absent, rfl⟩

theorem spansAreOrdered_setClass (classes : String)
    (ordered : ∀ attr ∈ element.attributes, SpansAreOrdered attr.spans) :
    ∀ attr ∈ (element.setClass classes).attributes, SpansAreOrdered attr.spans := by
  have made : SpansAreOrdered (partsSpans [.text (.made (" " ++ classes))]) :=
    spansAreOrdered_cons.mpr ⟨Position.upTo_refl _, spansAreOrdered_nil⟩
  unfold setClass
  split
  · apply forall_attributes_modify _ _ ordered
    intro ⟨name, value, span⟩ here
    obtain ⟨own, inside⟩ := spansAreOrdered_cons.mp here
    cases value with
    | text literal => exact here
    | concat parts whole =>
      obtain ⟨around, within⟩ := spansAreOrdered_cons.mp inside
      exact spansAreOrdered_cons.mpr ⟨own, spansAreOrdered_cons.mpr
        ⟨around, by
          rw [partsSpans_append]
          exact spansAreOrdered_append.mpr ⟨within, made⟩⟩⟩
    | mustache call =>
      have around : call.span.IsOrdered := inside _ call.span_mem_spans
      exact spansAreOrdered_cons.mpr ⟨own, spansAreOrdered_cons.mpr
        ⟨around, spansAreOrdered_append.mpr ⟨inside, made⟩⟩⟩
  · intro attr member
    rcases List.mem_append.mp member with old | new
    · exact ordered attr old
    · obtain rfl := List.mem_singleton.mp new
      exact spansAreOrdered_made _ _

end Element

namespace Settings

variable {settings : Settings} {element : Element}

theorem sublist_collect (settings : Settings) (element : Element) :
    (settings.collect element).element.attributes.Sublist element.attributes := by
  obtain ⟨names, -, left⟩ := exists_removeEach_collect settings element
  rw [left]
  exact element.sublist_removeEach names

theorem spansAreOrdered_convert (settings : Settings)
    (ordered : ∀ attr ∈ element.attributes, SpansAreOrdered attr.spans) :
    ∀ attr ∈ (settings.convert element).1.attributes, SpansAreOrdered attr.spans := by
  have kept : ∀ attr ∈ (settings.collect element).element.attributes, SpansAreOrdered attr.spans :=
    fun attr member => ordered attr ((settings.sublist_collect element).subset member)
  simp only [convert, Conversion.result]
  split
  · exact kept
  · exact Element.spansAreOrdered_setClass _ kept

/-- A conversion leaves the attributes where they are, or else it adds a class behind them. -/
theorem attributes_convert (settings : Settings) (element : Element) :
    ((settings.convert element).1.attributes.map Attribute.span =
        (settings.collect element).element.attributes.map Attribute.span ∧
      ((settings.collect element).refusal = none → (settings.collect element).entries ≠ [] →
        (settings.collect element).element.has "class" = true)) ∨
    ((settings.collect element).refusal = none ∧ (settings.collect element).entries ≠ [] ∧
      (settings.collect element).element.has "class" = false ∧
      ∃ classes, (settings.convert element).1.attributes =
        (settings.collect element).element.attributes ++ [.made "class" classes]) := by
  generalize made : settings.collect element = conversion
  simp only [convert, made, Conversion.result]
  split
  · rename_i idle
    refine .inl ⟨rfl, fun accepted written => ?_⟩
    simp [accepted, written] at idle
  · rename_i writes
    obtain ⟨accepted, written⟩ : conversion.refusal = none ∧ conversion.entries ≠ [] := by
      simpa using writes
    rcases conversion.element.attributes_setClass conversion.classes with
      ⟨present, same⟩ | ⟨absent, behind⟩
    · exact .inl ⟨same, fun _ _ => present⟩
    · exact .inr ⟨accepted, written, absent, _, behind⟩

theorem span_convert (settings : Settings) (element : Element) :
    (settings.convert element).1.span = element.span := by
  rw [convert_eq_with_attributes]

/-- The hash of a component that a conversion has added no class to is in order. -/
theorem isOrdered_hash_convert (placed : element.IsPlaced)
    (converts : settings.converts element.tag = true)
    (component : (settings.convert element).1.isComponent = true)
    (free : ¬ settings.AddsClassBeside element) {hash : Hash}
    (found : (settings.convert element).1.toBlock.hash = some hash) : hash.span.IsOrdered := by
  rcases settings.attributes_convert element with ⟨same, -⟩ | ⟨accepted, written, absent, classes, behind⟩
  · have kept := placed.ordered.sublist ((settings.sublist_collect element).map Attribute.span)
    rw [← same] at kept
    exact Element.isOrdered_hash kept found
  · have alone : (settings.collect element).element.attributes = [] := by
      by_contra beside
      exact free ⟨converts, accepted, written, absent, beside, component⟩
    have made : InOrder .nowhere
        ((settings.convert element).1.attributes.map Attribute.span) .nowhere := by
      rw [behind, alone]
      exact InOrder.whole (Position.upTo_refl _)
    exact Element.isOrdered_hash made found

/-- The hash of a component that a conversion has added a class to is out of order. -/
theorem not_isOrdered_hash_convert (placed : element.IsPlaced)
    (begun : Position.start.UpTo element.span.start) (adds : settings.AddsClassBeside element) :
    ∃ hash, (settings.convert element).1.toBlock.hash = some hash ∧ ¬ hash.span.IsOrdered := by
  rcases settings.attributes_convert element with ⟨-, present⟩ | ⟨-, -, -, classes, behind⟩
  · have absent := adds.absent
    rw [present adds.accepted adds.written] at absent
    cases absent
  · have kept := settings.sublist_collect element
    cases left : (settings.collect element).element.attributes with
    | nil => exact absurd left adds.beside
    | cons first rest =>
      rw [left] at behind kept
      have member : first.span ∈ element.attributes.map Attribute.span :=
        List.mem_map_of_mem (kept.subset List.mem_cons_self)
      apply Element.not_isOrdered_hash behind
      · rw [span_convert]
        exact begun
      · exact begun.trans (placed.ordered.of_mem member).1

end Settings

/-- The hash of a node that is a block with one. -/
def Node.hash? (node : Node) : Option Hash := node.block? >>= Block.hash

/-- What is made of an element has its spans in order, apart from the one of its hash. -/
theorem Element.isOrdered_of_mem_assembled {element : Element} {children : List NodeId}
    (own : element.span.IsOrdered) (attributes : ∀ attr ∈ element.attributes, SpansAreOrdered attr.spans)
    {span : Span} (member : span ∈ (Node.branch (.element element) children).assembled.spans) :
    span.IsOrdered ∨ element.isComponent = true ∧
      ∃ hash, element.toBlock.hash = some hash ∧ hash.span = span := by
  simp only [Node.assembled] at member
  split at member
  · rename_i component
    rcases isOrdered_of_mem_toBlock own attributes member with ordered | hashed
    · exact .inl ordered
    · exact .inr ⟨component, Option.map_eq_some_iff.mp hashed⟩
  · rcases List.mem_cons.mp member with rfl | inside
    · exact .inl own
    · obtain ⟨attr, listed, within⟩ := List.mem_flatMap.mp inside
      exact .inl (attributes attr listed span within)

namespace Settings

variable {settings : Settings} {node : Node}

/-- After a build only the span of a hash may be out of order, and only if the conversion has added a
class to the element that was there. -/
theorem isOrdered_of_mem_built (placed : node.IsPlaced) {span : Span}
    (member : span ∈ (settings.converted node).assembled.spans) :
    span.IsOrdered ∨ (∃ element, node.element? = some element ∧ settings.AddsClassBeside element) ∧
      (settings.converted node).assembled.hash?.map Hash.span = some span := by
  match node, placed with
  | .leaf content, placed => exact .inl (Node.spansAreOrdered placed span member)
  | .branch (.program own) children, placed => exact .inl (Node.spansAreOrdered placed span member)
  | .branch (.block block) children, placed => exact .inl (Node.spansAreOrdered placed span member)
  | .branch (.element element) children, ⟨_, placed⟩ =>
    have own : element.span.IsOrdered := placed.ordered.upTo
    have attributes : ∀ attr ∈ element.attributes, SpansAreOrdered attr.spans :=
      fun attr listed => Attribute.spansAreOrdered (placed.attributes attr listed)
    simp only [converted] at member ⊢
    split at member
    · rename_i converts
      rw [if_pos converts]
      have stays : (settings.convert element).1.span.IsOrdered := by
        rw [span_convert]
        exact own
      rcases Element.isOrdered_of_mem_assembled stays (settings.spansAreOrdered_convert attributes)
        member with ordered | ⟨component, hash, found, rfl⟩
      · exact .inl ordered
      · by_cases adds : settings.AddsClassBeside element
        · exact .inr ⟨⟨element, rfl, adds⟩, by simp [Node.assembled, component, Node.hash?, Node.block?, found]⟩
        · exact .inl (isOrdered_hash_convert placed converts component adds found)
    · rcases Element.isOrdered_of_mem_assembled own attributes member with
        ordered | ⟨-, hash, found, rfl⟩
      · exact .inl ordered
      · exact .inl (Element.isOrdered_hash placed.ordered found)

/-- The block that is made of an element has a hash that is out of order if the conversion has added a
class to the element. -/
theorem not_isOrdered_hash_of_built {element : Element} {children : List NodeId}
    (placed : (Node.branch (.element element) children).IsPlaced)
    (adds : settings.AddsClassBeside element) :
    ∃ span ∈ (settings.converted (.branch (.element element) children)).assembled.spans,
      ¬ span.IsOrdered := by
  obtain ⟨begun, inside⟩ := placed
  obtain ⟨hash, found, disordered⟩ := not_isOrdered_hash_convert inside begun adds
  refine ⟨hash.span, ?_, disordered⟩
  simp only [converted, if_pos adds.converts, Node.assembled, if_pos adds.component]
  simp only [Node.spans, Head.spans, Block.spans, found]
  obtain ⟨pairs, span⟩ := hash
  simp [hashSpans]

variable {source : String} {template after : Template}

/-- After a build of what was read all spans are well formed, unless a class was added to an element that
has become a component and has kept another attribute. The span of its hash is then the only one in the
component that is not well formed. -/
theorem isWellFormed_of_build (read : Template.read source = .ok template)
    (done : settings.build template = (after, none)) :
    ((∀ span ∈ after.spans, span.IsWellFormed) ↔
      ∀ id element, template.element? id = some element → ¬ settings.AddsClassBeside element) ∧
    ∀ id node, after.get? id = some node → ∀ span ∈ node.spans, ¬ span.IsWellFormed →
      (∃ element, template.element? id = some element ∧ settings.AddsClassBeside element) ∧
        node.hash?.map Hash.span = some span := by
  have built := get?_of_build (Template.isTree_of_read read) done
  have placed := @Template.isPlaced_of_read template source read
  have located : ∀ id node, after.get? id = some node → ∀ span ∈ node.spans, ¬ span.IsWellFormed →
      (∃ element, template.element? id = some element ∧ settings.AddsClassBeside element) ∧
        node.hash?.map Hash.span = some span := by
    intro id node present span member broken
    rw [built id] at present
    obtain ⟨former, there, rfl⟩ := Option.map_eq_some_iff.mp present
    rcases isOrdered_of_mem_built (placed there) member with ordered | ⟨⟨element, own, adds⟩, hashed⟩
    · exact absurd (Span.isWellFormed_iff.mpr ordered) broken
    · exact ⟨⟨element, by simp [Template.element?, there, own], adds⟩, hashed⟩
  refine ⟨⟨?_, ?_⟩, located⟩
  · intro all id element found adds
    obtain ⟨children, there⟩ := Template.element?_eq_some_iff.mp found
    obtain ⟨span, member, disordered⟩ := not_isOrdered_hash_of_built (placed there) adds
    have present := built id
    rw [there, Option.map_some] at present
    exact disordered (Span.isWellFormed_iff.mp (all span (Template.mem_spans_iff.mpr ⟨id, _, present, member⟩)))
  · intro free span member
    obtain ⟨id, node, present, inside⟩ := Template.mem_spans_iff.mp member
    by_contra broken
    obtain ⟨⟨element, found, adds⟩, -⟩ := located id node present span inside broken
    exact free id element found adds

/-- A container that keeps an attribute and gets a class: its hash reaches back to no place at all. -/
theorem isWellFormed_of_build_beside_attribute :
    let settings := ofProject .empty
    ∃ template after,
      Template.read "<container a fit></container>" = .ok template ∧
      settings.build template = (after, none) ∧
      ((after.get? 1).bind Node.hash?).map Hash.span = some ⟨⟨1, 18⟩, .nowhere⟩ ∧
      ¬ ∀ span ∈ after.spans, span.IsWellFormed := by
  intro settings
  have facts : (Template.read "<container a fit></container>").toOption.any (fun template =>
      decide ((settings.build template).2 = none) &&
        decide ((((settings.build template).1.get? 1).bind Node.hash?).map Hash.span =
          some ⟨⟨1, 18⟩, .nowhere⟩) &&
        (template.element? 1).any fun element =>
          let kept := settings.collect element
          settings.converts element.tag && kept.refusal.isNone && !kept.entries.isEmpty &&
            !kept.element.has "class" && !kept.element.attributes.isEmpty &&
            (settings.convert element).1.isComponent) = true := by decide +kernel
  obtain ⟨template, read, checked⟩ := Template.exists_of_any facts
  simp only [Bool.and_eq_true, decide_eq_true_eq, Option.any_eq_true, Option.isNone_iff_eq_none,
    Bool.not_eq_true', List.isEmpty_eq_false_iff] at checked
  obtain ⟨⟨accepted, hashed⟩, element, found, ⟨⟨⟨⟨converts, quiet⟩, written⟩, absent⟩, beside⟩,
    component⟩ := checked
  have done : settings.build template = ((settings.build template).1, none) := Prod.ext rfl accepted
  refine ⟨template, _, read, done, hashed, fun all => ?_⟩
  exact (isWellFormed_of_build read done).1.mp all 1 element found
    ⟨converts, quiet, written, absent, beside, component⟩

end Settings

end LayoutMarkup
