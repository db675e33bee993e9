import LayoutMarkup.Proofs.Call.Nesting
import LayoutMarkup.Proofs.Template.Mustaches
import LayoutMarkup.Proofs.Template.Placement
import LayoutMarkup.Proofs.Template.Tiling

/-! Spans below the nodes. The attributes of an element that was read stand between its tag and its first
child, one after the other; the slice that the span of an attribute names is its name and its value, and
the slice of a value is what the value holds, between its quotes if it has quotes. In every mustache the
spans nest. -/

namespace LayoutMarkup

/-- How a value stands in a source: text as its characters, quoted or not; parts side by side between the
quotes, literal parts as their characters. -/
def AttributeValue.IsWritten (source : String) : AttributeValue → Prop
  | .text literal =>
    let quote := openingQuote (literal.span.slice source)
    literal.span.slice source = quote ++ literal.chars.toList ++ quote
  | .mustache _ => True
  | .concat parts span =>
    ∃ quote stop, (quote = '"' ∨ quote = '\'') ∧ span.stop = stop.next quote ∧
      Adjoin (span.start.next quote) (parts.map Part.span) stop ∧
      span.slice source = quote :: parts.flatMap (fun part => part.span.slice source) ++ [quote] ∧
      ∀ literal, Part.text literal ∈ parts → literal.span.slice source = literal.chars.toList

/-- How an attribute stands in a source: its value within it, behind its name and an equals sign or,
without the sign, as the nothing behind the name. -/
structure Attribute.IsWritten (source : String) (attr : Attribute) : Prop where
  filled : attr.span.start.Before attr.span.stop
  nested : InOrder attr.span.start [attr.value.span] attr.span.stop
  slice : ∃ sign, attr.span.slice source =
      attr.name.toList ++ sign ++ attr.value.span.slice source ∧
    (sign = ['='] ∨ sign = [] ∧ attr.value.span.slice source = [])
  value : attr.value.IsWritten source

/-- The mustaches at a node with their spans; that of the opening of a block ends where its body starts. -/
def Node.mustaches : Node → List Call
  | .branch (.block block) _ =>
    [⟨block.path, block.params, block.hash, block.span.start, block.bodySpan.start⟩]
  | node => node.calls

/-- What holds of the spans of attributes and mustaches in a template that was read from a source. -/
structure Template.SpansNest (template : Template) (source : String) : Prop where
  /-- The text of an element begins with a start tag, in which there are its attributes and blanks. -/
  startTag : ∀ id el ids, template.get? id = some (.branch (.element el) ids) →
    ∃ opening, opening <+: el.span.slice source ∧
      IsStartTag el.tag el.attributes el.span.start opening
  /-- Attributes stand one after the other behind the tag of their element and before all its children. -/
  ordered : ∀ id el ids, template.get? id = some (.branch (.element el) ids) →
    ∃ stop, InOrder (el.span.start.after ('<' :: el.tag.toList))
        (el.attributes.map Attribute.span) stop ∧
      stop.Before el.span.stop ∧
      ∀ child ∈ ids, ∀ node, template.get? child = some node → stop.Before node.span.start
  written : ∀ id el ids, template.get? id = some (.branch (.element el) ids) →
    ∀ attr ∈ el.attributes, attr.IsWritten source
  mustache : ∀ id node, template.get? id = some node → ∀ call ∈ node.mustaches,
    ∀ inner, call.Contains inner → inner.SpansNest

section Text

variable {source : String} {start : Position} {text : List Char}

/-- Parts that cover a text stand side by side in it, and their slices make it up. -/
theorem PartsCover.slices {parts : List Part} (holds : HoldsAt source start text)
    (covered : PartsCover parts start text) :
    Adjoin start (parts.map Part.span) (start.after text) ∧
      parts.flatMap (fun part => part.span.slice source) = text ∧
      ∀ literal, Part.text literal ∈ parts → literal.span.slice source = literal.chars.toList := by
  induction parts generalizing start text with
  | nil =>
    obtain rfl : text = [] := covered
    exact ⟨rfl, rfl, by simp⟩
  | cons part rest ih =>
    obtain ⟨first, others, rfl, filled, span, chars, later⟩ := covered
    obtain ⟨adjoin, whole, literals⟩ := ih holds.back later
    have own : part.span.slice source = first := by rw [span, holds.front.slice]
    refine ⟨?_, by rw [List.flatMap_cons, own, whole], ?_⟩
    · rw [List.map_cons, span, Position.after_append]
      exact ⟨rfl, Position.before_after _ filled, adjoin⟩
    · intro literal member
      rcases List.mem_cons.mp member with rfl | elsewhere
      · exact own.trans (Eq.symm chars)
      · exact literals literal elsewhere

theorem AttributeValue.Covers.isWritten {value : AttributeValue} (holds : HoldsAt source start text)
    (covered : value.Covers start text) : value.IsWritten source := by
  obtain ⟨span, content⟩ := covered
  cases value with
  | text literal =>
    change literal.span = _ at span
    simp only [IsWritten, span, holds.slice]
    exact content
  | mustache call => trivial
  | concat parts own =>
    obtain rfl : own = _ := span
    obtain ⟨quote, inner, isQuote, rfl, covered⟩ := content
    have within : HoldsAt source (start.after [quote]) inner := holds.front.back
    obtain ⟨adjoin, whole, literals⟩ := covered.slices within
    refine ⟨quote, _, isQuote, ?_, adjoin, ?_, literals⟩
    · simp [Position.after_append, Position.after_cons, Position.after_nil]
    · rw [holds.slice, whole]

theorem Attribute.Covers.isWritten {attr : Attribute} (holds : HoldsAt source start text)
    (covered : attr.Covers start text) : attr.IsWritten source := by
  have nested := covered.inOrder
  obtain ⟨span, filled, sign, value, rfl, signed, inside⟩ := covered
  have own := inside.1
  have slice : attr.value.span.slice source = value := by rw [own, holds.back.slice]
  exact {
    filled := by
      rw [span]
      exact Position.before_after _ (by simp [filled])
    nested
    slice := ⟨sign, by rw [span, holds.slice, slice], by rwa [slice]⟩
    value := inside.isWritten holds.back }

namespace AttributesCover

variable {attributes : List Attribute}

theorem isWritten (holds : HoldsAt source start text)
    (covered : AttributesCover attributes start text) :
    ∀ attr ∈ attributes, attr.IsWritten source := by
  induction attributes generalizing start text with
  | nil => simp
  | cons attr rest ih =>
    obtain ⟨blanks, first, others, rfl, -, own, later⟩ := covered
    have behind := holds.back
    exact List.forall_mem_cons.mpr ⟨own.isWritten behind.front, ih behind.back later⟩

end AttributesCover

end Text

namespace Tree

variable {start : Position} {text : List Char}

/-- No tree that covers a piece of a text starts before the text. -/
theorem CoversAll.upTo_start {lookup : NodeId → Option Node} {trees : List Tree} {ids : List NodeId}
    (covered : CoversAll trees start text) (shown : ShownAll lookup trees ids) :
    ∀ id ∈ ids, ∀ node, lookup id = some node → start.UpTo node.span.start := by
  induction trees generalizing start text ids with
  | nil =>
    obtain rfl : ids = [] := shown
    simp
  | cons tree trees ih =>
    obtain ⟨piece, rest, rfl, first, others⟩ := covered
    obtain ⟨id, ids, rfl, here, later⟩ := shown
    intro child member node found
    rcases List.mem_cons.mp member with rfl | elsewhere
    · obtain ⟨own, present, span⟩ := first.span here
      cases found.symm.trans present
      rw [span]
      exact start.upTo_refl
    · exact (Position.upTo_after start piece).trans (ih others later child elsewhere node found)

end Tree

theorem PartsArePlaced.of_mem {parts : List Part} {call : Call} (placed : PartsArePlaced parts)
    (member : Part.mustache call ∈ parts) : call.IsPlaced := by
  induction parts with
  | nil => cases member
  | cons part rest ih =>
    cases part with
    | text literal => exact ih placed (by simpa using member)
    | mustache own =>
      rcases List.mem_cons.mp member with same | later
      · cases same
        exact placed.1
      · exact ih placed.2 later

theorem AttributeValue.IsPlaced.of_mem_calls {value : AttributeValue} (placed : value.IsPlaced) :
    ∀ call ∈ value.calls, call.IsPlaced := by
  cases value with
  | text literal => simp [calls]
  | mustache call =>
    intro other member
    rw [List.mem_singleton.mp member]
    exact placed
  | concat parts span => exact fun call member => placed.2.of_mem (Part.mem_calls.mp member)

namespace Node

/-- The parts of every mustache at a placed node are placed. -/
theorem isPlaced_of_mem_mustaches {node : Node} (placed : node.IsPlaced) :
    ∀ call ∈ node.mustaches, call.IsPlaced := by
  obtain ⟨-, placed⟩ := placed
  intro call member
  match node with
  | .leaf (.mustache own) =>
    rw [List.mem_singleton.mp member]
    exact placed
  | .leaf (.text _) => cases member
  | .leaf (.comment _) => cases member
  | .branch (.program _) _ => cases member
  | .branch (.element element) _ =>
    obtain ⟨attr, own, inside⟩ := List.mem_flatMap.mp member
    exact (placed.attributes attr own).2.of_mem_calls call inside
  | .branch (.block block) _ =>
    rw [List.mem_singleton.mp member]
    exact ⟨placed.ordered, placed.params, placed.hash⟩

theorem meets_of_mem_mustaches {node : Node} (met : ∀ call ∈ node.calls, call.meets .asRead = true) :
    ∀ call ∈ node.mustaches, call.meets .asRead = true := by
  match node with
  | .branch (.block block) _ =>
    intro call member
    rw [List.mem_singleton.mp member]
    have bare := met block.call List.mem_cons_self
    have spanned := Call.meets_asRead_withSpan ⟨block.span.start, block.bodySpan.start⟩ bare
    exact spanned
  | .leaf _ => exact met
  | .branch (.program _) _ => exact met
  | .branch (.element _) _ => exact met

end Node

namespace Template

variable {source : String} {template : Template}

section Covered

variable {trees : List Tree} {span : Span} {id : NodeId} {ids : List NodeId}
  (covered : Tree.CoversAll trees .start source.toList)

include covered

/-- An element was read from a start tag and what follows it, its children from what follows. -/
theorem exists_isStartTag_of_get? {el : Element}
    (found : (ofTrees trees span).get? id = some (.branch (.element el) ids)) :
    ∃ start opening behind, HoldsAt source start (opening ++ behind) ∧
      el.span = ⟨start, start.after (opening ++ behind)⟩ ∧
      IsStartTag el.tag el.attributes start opening ∧
      ∀ child ∈ ids, ∀ node, (ofTrees trees span).get? child = some node →
        (start.after opening).UpTo node.span.start := by
  obtain ⟨tree, start, piece, holds, covers, shown⟩ :=
    exists_covers_of_get? covered (ne_root_of_get? found (by simp)) found
  cases tree with
  | leaf content => cases found.symm.trans shown
  | branch head trees =>
    obtain ⟨ids, found', below⟩ := shown
    cases found.symm.trans found'
    obtain ⟨place, opening, body, closing, rfl, ⟨opens, -⟩, inside⟩ := covers
    rw [List.append_assoc] at holds place
    exact ⟨start, opening, body ++ closing, holds, place, opens, inside.upTo_start below⟩

theorem startTag_of_get? {el : Element}
    (found : (ofTrees trees span).get? id = some (.branch (.element el) ids)) :
    ∃ opening, opening <+: el.span.slice source ∧
      IsStartTag el.tag el.attributes el.span.start opening := by
  obtain ⟨start, opening, behind, holds, place, opens, -⟩ := exists_isStartTag_of_get? covered found
  rw [place, holds.slice]
  exact ⟨opening, List.prefix_append _ _, opens⟩

theorem attributes_inOrder {el : Element}
    (found : (ofTrees trees span).get? id = some (.branch (.element el) ids)) :
    ∃ stop, InOrder (el.span.start.after ('<' :: el.tag.toList))
        (el.attributes.map Attribute.span) stop ∧
      stop.Before el.span.stop ∧
      ∀ child ∈ ids, ∀ node, (ofTrees trees span).get? child = some node →
        stop.Before node.span.start := by
  obtain ⟨start, opening, behind, -, place, ⟨inner, shape, listed⟩, children⟩ :=
    exists_isStartTag_of_get? covered found
  obtain ⟨stop, ordered, ends⟩ := listed.inOrder
  rw [← Position.after_append, ← shape] at ends
  rw [place, Position.after_append]
  refine ⟨stop, ordered, ends.trans_upTo (Position.upTo_after _ _), ?_⟩
  exact fun child member node present => ends.trans_upTo (children child member node present)

theorem attributes_areWritten {el : Element}
    (found : (ofTrees trees span).get? id = some (.branch (.element el) ids)) :
    ∀ attr ∈ el.attributes, attr.IsWritten source := by
  obtain ⟨start, opening, behind, holds, -, ⟨inner, rfl, listed⟩, -⟩ :=
    exists_isStartTag_of_get? covered found
  exact listed.isWritten holds.front.back

end Covered

/-- The spans of attributes and mustaches nest in every template that was read. -/
theorem spansNest_of_read (found : read source = .ok template) : template.SpansNest source := by
  have mustache : ∀ id node, template.get? id = some node → ∀ call ∈ node.mustaches,
      ∀ inner, call.Contains inner → inner.SpansNest := by
    intro id node present call member inner within
    have placed := Node.isPlaced_of_mem_mustaches (isPlaced_of_read found present) call member
    have met := Node.meets_of_mem_mustaches (fun _ => meets_of_mem_calls found present) call member
    exact Call.spansNest_of_contains placed met within
  obtain ⟨trees, cursor, finished, rfl⟩ := exists_trees_of_read found
  obtain ⟨covered, -⟩ := Tree.coversAll_of_read finished
  exact {
    startTag := fun _ _ _ => startTag_of_get? covered
    ordered := fun _ _ _ => attributes_inOrder covered
    written := fun _ _ _ => attributes_areWritten covered
    mustache }

/-- Every kind of value, on two lines, before a block with a named argument. -/
theorem spansNest_of_two_lines :
    let source := "<box a b=c\n  d=\"x y\" e=\x7b\x7bf (g h=1) i=j\x7d\x7d k='l\x7b\x7bm\x7d\x7dn'>" ++
      "\x7b\x7b#if x y=z\x7d\x7dt\x7b\x7b/if\x7d\x7d</box>"
    ∃ template, read source = .ok template ∧ template.SpansNest source ∧
      (template.element? 3).map (fun el =>
          el.attributes.map fun attr => (attr.span, attr.value.span.slice source)) =
        some [(⟨⟨1, 5⟩, ⟨1, 6⟩⟩, []),
          (⟨⟨1, 7⟩, ⟨1, 10⟩⟩, ['c']),
          (⟨⟨2, 2⟩, ⟨2, 9⟩⟩, "\"x y\"".toList),
          (⟨⟨2, 10⟩, ⟨2, 29⟩⟩, "\x7b\x7bf (g h=1) i=j\x7d\x7d".toList),
          (⟨⟨2, 30⟩, ⟨2, 41⟩⟩, "'l\x7b\x7bm\x7d\x7dn'".toList)] ∧
      (template.get? 2).map (fun node => node.mustaches.map Call.span) =
        some [⟨⟨2, 42⟩, ⟨2, 55⟩⟩] := by
  intro source
  have facts : (read source).toOption.any (fun template =>
      (template.element? 3).map (fun el =>
          el.attributes.map fun attr => (attr.span, attr.value.span.slice source)) =
        some [(⟨⟨1, 5⟩, ⟨1, 6⟩⟩, []),
          (⟨⟨1, 7⟩, ⟨1, 10⟩⟩, ['c']),
          (⟨⟨2, 2⟩, ⟨2, 9⟩⟩, "\"x y\"".toList),
          (⟨⟨2, 10⟩, ⟨2, 29⟩⟩, "\x7b\x7bf (g h=1) i=j\x7d\x7d".toList),
          (⟨⟨2, 30⟩, ⟨2, 41⟩⟩, "'l\x7b\x7bm\x7d\x7dn'".toList)] &&
      (template.get? 2).map (fun node => node.mustaches.map Call.span) =
        some [⟨⟨2, 42⟩, ⟨2, 55⟩⟩]) = true := by
    decide +kernel
  obtain ⟨template, found, checked⟩ := exists_of_any facts
  simp only [Bool.and_eq_true, decide_eq_true_eq] at checked
  obtain ⟨attributes, opening⟩ := checked
  exact ⟨template, found, spansNest_of_read found, attributes, opening⟩

end Template

end LayoutMarkup
