import LayoutMarkup.Proofs.Layout.Blindness
import LayoutMarkup.Proofs.Layout.SpanOrder

/-! Attributes as named arguments. When an element becomes a component, each of its attributes becomes
one argument, from which its value can be told again; look-ups by name agree. The opening gets longer, so
that the spans of an attribute and of its value move with the line of the element, and no others do. -/

namespace LayoutMarkup

/-- Where a place is after the opening on a line has got longer: seven columns further on this line, and
where it was on any other. -/
structure Position.MovesOn (line : Nat) (before after : Position) : Prop where
  there : before.line = line → after = ⟨before.line, before.column + 7⟩
  elsewhere : before.line ≠ line → after = before

structure Span.MovesOn (line : Nat) (before after : Span) : Prop where
  start : before.start.MovesOn line after.start
  stop : before.stop.MovesOn line after.stop

theorem Position.movesOn_shift (line : Nat) (position : Position) :
    position.MovesOn line (position.shift line) :=
  ⟨fun same => by rw [shift, if_pos same, componentShift], fun other => by rw [shift, if_neg other]⟩

theorem Span.movesOn_shift (line : Nat) (span : Span) : span.MovesOn line (span.shift line) :=
  ⟨span.start.movesOn_shift line, span.stop.movesOn_shift line⟩

/-- The argument that a value becomes on a line. A text becomes a string, a mustache that is only a name
a path, and any other a call; what lies within a value keeps its spans. -/
inductive AttributeValue.Becomes (line : Nat) : AttributeValue → Expression → Prop where
  | text {chars : String} {span moved : Span} (moves : span.MovesOn line moved) :
      Becomes line (.text ⟨chars, span⟩) (.string chars moved)
  | name {name : String} {span moved around : Span} (moves : span.MovesOn line moved) :
      Becomes line (.mustache ⟨⟨name, span⟩, [], none, around⟩) (.path ⟨name, moved⟩)
  | call {path : Path} {params : List Expression} {hash : Option Hash} {span moved : Span}
      (loaded : params ≠ [] ∨ hash ≠ none) (moves : span.MovesOn line moved) :
      Becomes line (.mustache ⟨path, params, hash, span⟩) (.call ⟨path, params, hash, moved⟩)
  | concat {parts : List Part} {span moved : Span} (moves : span.MovesOn line moved) :
      Becomes line (.concat parts span) (.concat parts moved)

/-- The argument that an attribute becomes on a line. -/
structure Attribute.BecomesPair (line : Nat) (attr : Attribute) (pair : Pair) : Prop where
  key : pair.key = attr.name
  span : attr.span.MovesOn line pair.span
  value : attr.value.Becomes line pair.value

/-- The attribute value that an argument came from. No attribute says a number or a truth value. -/
def Expression.toAttributeValue? : Expression → Option AttributeValue
  | .path name => some (.mustache ⟨name, [], none, name.span⟩)
  | .string chars span => some (.text ⟨chars, span⟩)
  | .call inner => some (.mustache inner)
  | .concat parts span => some (.concat parts span)
  | .number _ _ => none
  | .boolean _ _ => none

theorem Call.isBare_iff {call : Call} : call.isBare = true ↔ call.params = [] ∧ call.hash = none := by
  simp [isBare]

namespace AttributeValue

/-- Up to spans, an argument tells the value that it was made of. -/
theorem toAttributeValue?_toExpression (value : AttributeValue) :
    value.toExpression.withoutSpans.toAttributeValue? = some value.withoutSpans := by
  cases value with
  | text literal => rfl
  | concat parts span => rfl
  | mustache call =>
    by_cases bare : call.isBare = true
    · obtain ⟨path, params, hash, span⟩ := call
      obtain ⟨rfl, rfl⟩ := Call.isBare_iff.mp bare
      rfl
    · rw [toExpression, if_neg bare]
      rfl

/-- So values that differ in more than spans become arguments that do. -/
theorem withoutSpans_toExpression_iff {first second : AttributeValue} :
    first.toExpression.withoutSpans = second.toExpression.withoutSpans ↔
      first.withoutSpans = second.withoutSpans := by
  constructor
  · intro same
    have told := congrArg Expression.toAttributeValue? same
    rw [toAttributeValue?_toExpression, toAttributeValue?_toExpression] at told
    exact Option.some.inj told
  · intro same
    rw [← toExpression_withoutSpans, same, toExpression_withoutSpans]

end AttributeValue

namespace Attribute

theorem withoutSpans_value_toPair (attr : Attribute) (line : Nat) :
    (attr.toPair line).value.withoutSpans = attr.value.toExpression.withoutSpans :=
  Expression.withoutSpans_withSpan _ _

theorem becomes_toPair (attr : Attribute) (line : Nat) :
    attr.BecomesPair line (attr.toPair line) := by
  refine ⟨rfl, attr.span.movesOn_shift line, ?_⟩
  obtain ⟨name, value, span⟩ := attr
  cases value with
  | text literal => exact .text (literal.span.movesOn_shift line)
  | concat parts span => exact .concat (span.movesOn_shift line)
  | mustache call =>
    obtain ⟨path, params, hash, span⟩ := call
    by_cases bare : Call.isBare ⟨path, params, hash, span⟩ = true
    · obtain ⟨rfl, rfl⟩ := Call.isBare_iff.mp bare
      exact .name (path.span.movesOn_shift line)
    · have loaded : params ≠ [] ∨ hash ≠ none := by
        rwa [Call.isBare_iff, not_and_or] at bare
      simp only [toPair, AttributeValue.toExpression, if_neg bare]
      exact .call loaded (span.movesOn_shift line)

end Attribute

namespace Element

variable {element : Element}

theorem hash_toBlock_eq_none_iff : element.toBlock.hash = none ↔ element.attributes = [] := by
  simp [toBlock]

/-- The arguments of a component are its attributes, one by one. -/
theorem pairs_toBlock {hash : Hash} (made : element.toBlock.hash = some hash) :
    hash.pairs = element.attributes.map (Attribute.toPair · element.span.start.line) := by
  rw [hash_toBlock made, Hash.pairs_ofPairs]

/-- A name that is looked up among the arguments leads to what has become of the attribute that it leads
to among the attributes. -/
theorem get?_toBlock (element : Element) (name : String) :
    element.toBlock.hash.bind (·.get? name) =
      (element.get? name).map fun attr => (attr.toPair element.span.start.line).value := by
  cases made : element.toBlock.hash with
  | none => simp [get?, hash_toBlock_eq_none_iff.mp made]
  | some hash =>
    rw [Option.bind_some, Hash.get?, pairs_toBlock made, List.find?_map, Option.map_map]
    rfl

end Element

/-- An element that calls for a component becomes a block over the same children, with a path after its
tag, no positional arguments, and for each attribute in its order one named argument of the same key. A
look-up by name finds what has become of the attribute that it finds among the attributes. The value can
be told from the argument, up to spans; and of the spans only those of the attribute and of its value
move, on the line of the element. -/
theorem component_keeps_attributes {template : Template} {id : NodeId} {element : Element}
    {children : List NodeId} (found : template.get? id = some (.branch (.element element) children))
    (component : element.isComponent = true) :
    ∃ block, (template.applyAt componentRule id).1.get? id = some (.branch (.block block) children) ∧
      block.path.name = "flexi-" ++ element.tag ∧ block.params = [] ∧
      (block.hash = none ↔ element.attributes = []) ∧
      (∀ hash, block.hash = some hash →
        hash.pairs = element.attributes.map (Attribute.toPair · element.span.start.line)) ∧
      (∀ name, block.hash.bind (·.get? name) =
        (element.get? name).map fun attr => (attr.toPair element.span.start.line).value) ∧
      (∀ attr ∈ element.attributes,
        attr.BecomesPair element.span.start.line (attr.toPair element.span.start.line) ∧
        (attr.toPair element.span.start.line).value.withoutSpans.toAttributeValue? =
          some attr.value.withoutSpans) ∧
      ∀ first second : Attribute, ∀ line,
        (first.toPair line).value.withoutSpans = (second.toPair line).value.withoutSpans ↔
          first.value.withoutSpans = second.value.withoutSpans := by
  refine ⟨element.toBlock, ?_, rfl, rfl, Element.hash_toBlock_eq_none_iff,
    fun hash made => Element.pairs_toBlock made, element.get?_toBlock, ?_, ?_⟩
  · rw [Template.get?_applyAt, if_pos rfl, found, Option.map_some, Node.ruled_component, Node.assembled,
      if_pos component]
  · intro attr _
    refine ⟨attr.becomes_toPair _, ?_⟩
    rw [attr.withoutSpans_value_toPair, AttributeValue.toAttributeValue?_toExpression]
  · intro first second line
    rw [first.withoutSpans_value_toPair, second.withoutSpans_value_toPair,
      AttributeValue.withoutSpans_toExpression_iff]

/-- A container with values of all kinds, on two lines, and with a name that is repeated. -/
theorem component_keeps_attributes_of_container :
    ∃ template element children block hash,
      Template.read "<container a='x' a={{b}}\n c='y {{z 1}}' d={{e f=g}} h></container>" =
        .ok template ∧
      template.get? 1 = some (.branch (.element element) children) ∧ element.isComponent = true ∧
      (template.applyAt componentRule 1).1.get? 1 = some (.branch (.block block) children) ∧
      block.path.name = "flexi-container" ∧ block.hash = some hash ∧
      hash.pairs.map Pair.key = ["a", "a", "c", "d", "h"] ∧
      hash.pairs.map (fun pair => pair.value.span) = [⟨⟨1, 20⟩, ⟨1, 23⟩⟩, ⟨⟨1, 28⟩, ⟨1, 29⟩⟩,
        ⟨⟨2, 3⟩, ⟨2, 14⟩⟩, ⟨⟨2, 17⟩, ⟨2, 26⟩⟩, ⟨⟨2, 28⟩, ⟨2, 28⟩⟩] ∧
      hash.get? "a" = (element.get? "a").map fun attr => (attr.toPair 1).value := by
  have facts : (Template.read
      "<container a='x' a={{b}}\n c='y {{z 1}}' d={{e f=g}} h></container>").toOption.any
      (fun template => (template.element? 1).any fun element =>
        element.isComponent && element.tag = "container" && element.span.start.line = 1 &&
          element.attributes.map Attribute.name = ["a", "a", "c", "d", "h"] &&
          element.attributes.map (fun attr => (attr.toPair 1).value.span) =
            [⟨⟨1, 20⟩, ⟨1, 23⟩⟩, ⟨⟨1, 28⟩, ⟨1, 29⟩⟩, ⟨⟨2, 3⟩, ⟨2, 14⟩⟩, ⟨⟨2, 17⟩, ⟨2, 26⟩⟩,
              ⟨⟨2, 28⟩, ⟨2, 28⟩⟩]) = true := by
    decide +kernel
  obtain ⟨template, read, checked⟩ := Template.exists_of_any facts
  simp only [Option.any_eq_true, Bool.and_eq_true, decide_eq_true_eq] at checked
  obtain ⟨element, present, ⟨⟨⟨component, tag⟩, line⟩, names⟩, spans⟩ := checked
  obtain ⟨children, found⟩ := Template.element?_eq_some_iff.mp present
  obtain ⟨block, made, path, -, bare, pairs, named, -⟩ := component_keeps_attributes found component
  rw [line] at pairs named
  cases hashed : block.hash with
  | none =>
    rw [bare.mp hashed] at names
    cases names
  | some hash =>
    rw [hashed] at named
    refine ⟨template, element, children, block, hash, read, found, component, made, ?_, hashed, ?_, ?_,
      named "a"⟩
    · rw [path, tag]
      rfl
    · rw [pairs hash hashed, List.map_map, ← names]
      rfl
    · rw [pairs hash hashed, List.map_map, ← spans]
      rfl

end LayoutMarkup
