import LayoutMarkup.Proofs.Source.Slices
import LayoutMarkup.Proofs.Template.Covering

/-! Tilings. The spans of a template that was read divide its source: siblings stand side by side
without a gap, children lie within their parents, and the slice that a span names is what the node was
read from. -/

namespace LayoutMarkup

namespace Template

/-- Nodes stand side by side from one place to another. -/
def Tiles (template : Template) : Position → List NodeId → Position → Prop
  | start, [], stop => start = stop
  | start, id :: ids, stop =>
    ∃ node, template.get? id = some node ∧ node.span.start = start ∧
      template.Tiles node.span.stop ids stop

/-- What holds of the spans of a template that was read from a source. -/
structure IsTiled (template : Template) (source : String) : Prop where
  /-- The root spans the source, and its children stand side by side in it. -/
  root : ∃ ids, template.get? root =
      some (.branch (.program ⟨.start, Position.start.after source.toList⟩) ids) ∧
    template.Tiles .start ids (Position.start.after source.toList)
  /-- No other node is empty. -/
  filled : ∀ id node, id ≠ Template.root → template.get? id = some node →
    node.span.start.Before node.span.stop
  text : ∀ id literal, template.get? id = some (.leaf (.text literal)) →
    literal.span.slice source = literal.chars.toList
  element : ∀ id el ids, template.get? id = some (.branch (.element el) ids) →
    '<' :: el.tag.toList <+: el.span.slice source ∧
      (el.selfClosing = false → isVoidTag el.tag = false →
        ∃ closing, IsClosingTag el.tag closing ∧ closing <:+ el.span.slice source)
  /-- The children of an element stand side by side, strictly inside of it. -/
  children : ∀ id el ids, template.get? id = some (.branch (.element el) ids) → ids ≠ [] →
    ∃ first last, el.span.start.Before first ∧ template.Tiles first ids last ∧
      last.Before el.span.stop
  /-- The body of a block is what its children fill, side by side. -/
  body : ∀ id inner ids, template.get? id = some (.branch (.block inner) ids) →
    inner.span.start.Before inner.bodySpan.start ∧
      template.Tiles inner.bodySpan.start ids inner.bodySpan.stop ∧
      inner.bodySpan.stop.Before inner.span.stop
  block : ∀ id inner ids, template.get? id = some (.branch (.block inner) ids) →
    ∃ closing, IsClosingMustache inner.path.name closing ∧ closing <:+ inner.span.slice source

end Template

theorem IsClosingTag.ne_nil {tag : String} {text : List Char} (closing : IsClosingTag tag text) :
    text ≠ [] := by
  obtain ⟨blanks, rfl, -⟩ := closing
  simp

theorem IsClosingMustache.ne_nil {name : String} {text : List Char}
    (closing : IsClosingMustache name text) : text ≠ [] := by
  obtain ⟨sign, gap, behind, rfl, -⟩ := closing
  simp

theorem Head.Wraps.ne_nil {head : Head} {start : Position} {opening body closing : List Char}
    (wraps : head.Wraps start opening body closing) : opening ≠ [] := by
  cases head with
  | program span => exact wraps.elim
  | element el =>
    obtain ⟨⟨rest, rfl, -⟩, -⟩ := wraps
    simp
  | block inner => exact wraps.1

namespace Tree

variable {start : Position} {text : List Char}

theorem Covers.span {tree : Tree} (covered : tree.Covers start text) {lookup : NodeId → Option Node}
    {id : NodeId} (shown : tree.ShownAt lookup id) :
    ∃ node, lookup id = some node ∧ node.span = ⟨start, start.after text⟩ := by
  cases tree with
  | leaf content => exact ⟨_, shown, covered.2.1⟩
  | branch head trees =>
    obtain ⟨ids, found, -⟩ := shown
    exact ⟨_, found, covered.1⟩

theorem Covers.ne_nil {tree : Tree} (covered : tree.Covers start text) : text ≠ [] := by
  cases tree with
  | leaf content => exact covered.1
  | branch head trees =>
    obtain ⟨-, opening, body, closing, rfl, wraps, -⟩ := covered
    simp [wraps.ne_nil]

/-- Trees that cover a text are shown side by side. -/
theorem CoversAll.tiles {template : Template} {trees : List Tree} {ids : List NodeId}
    (covered : CoversAll trees start text) (shown : ShownAll template.get? trees ids) :
    template.Tiles start ids (start.after text) := by
  induction trees generalizing start text ids with
  | nil =>
    obtain rfl : text = [] := covered
    obtain rfl : ids = [] := shown
    rfl
  | cons tree trees ih =>
    obtain ⟨piece, rest, rfl, first, others⟩ := covered
    obtain ⟨id, ids, rfl, here, later⟩ := shown
    obtain ⟨node, found, span⟩ := first.span here
    refine ⟨node, found, by rw [span], ?_⟩
    rw [span, Position.after_append]
    exact ih others later

end Tree

namespace Template

variable {source : String} {template : Template}

section Covered

variable {trees : List Tree} {span : Span} {id : NodeId} {ids : List NodeId}
  (covered : Tree.CoversAll trees .start source.toList)

include covered

/-- Every node but the root was read from a piece of the source. -/
theorem exists_covers_of_get? {node : Node} (other : id ≠ root)
    (found : (ofTrees trees span).get? id = some node) :
    ∃ tree start piece, HoldsAt source start piece ∧ Tree.Covers tree start piece ∧
      tree.ShownAt (ofTrees trees span).get? id := by
  obtain ⟨tree, member, shown⟩ := exists_subtree_of_get? found other
  obtain ⟨before, piece, behind, shape, covers⟩ :=
    Tree.exists_covers_of_mem_subtreesAll trees _ _ covered tree member
  exact ⟨tree, _, piece, ⟨before, behind, shape, rfl⟩, covers, shown⟩

/-- Every branch but the root was read from a piece of the source: its opening, the text of its children
and its closing. -/
theorem exists_wraps_of_get? {head : Head} (other : ∀ span, head ≠ .program span)
    (found : (ofTrees trees span).get? id = some (.branch head ids)) :
    ∃ start opening body closing, HoldsAt source start (opening ++ body ++ closing) ∧
      head.Wraps start opening body closing ∧
      head.span = ⟨start, start.after (opening ++ body ++ closing)⟩ ∧
      (ofTrees trees span).Tiles (start.after opening) ids ((start.after opening).after body) ∧
      (ids ≠ [] → body ≠ []) := by
  have inner : id ≠ root := ne_root_of_get? found (by simpa using other)
  obtain ⟨tree, start, piece, holds, covers, shown⟩ := exists_covers_of_get? covered inner found
  cases tree with
  | leaf content => cases found.symm.trans shown
  | branch head trees =>
    obtain ⟨ids, found', below⟩ := shown
    cases found.symm.trans found'
    obtain ⟨place, opening, body, closing, rfl, wraps, inside⟩ := covers
    refine ⟨start, opening, body, closing, holds, wraps, place, inside.tiles below, ?_⟩
    intro filled
    cases trees with
    | nil => exact absurd below filled
    | cons tree trees =>
      obtain ⟨first, rest, rfl, one, -⟩ := inside
      simp [one.ne_nil]

theorem start_before_stop {node : Node} (other : id ≠ root)
    (found : (ofTrees trees span).get? id = some node) :
    node.span.start.Before node.span.stop := by
  obtain ⟨tree, start, piece, -, covers, shown⟩ := exists_covers_of_get? covered other found
  obtain ⟨node', found', place⟩ := covers.span shown
  cases found.symm.trans found'
  rw [place]
  exact Position.before_after _ covers.ne_nil

theorem slice_of_text {literal : Text}
    (found : (ofTrees trees span).get? id = some (.leaf (.text literal))) :
    literal.span.slice source = literal.chars.toList := by
  obtain ⟨tree, start, piece, holds, covers, shown⟩ :=
    exists_covers_of_get? covered (ne_root_of_get? found (by simp)) found
  cases tree with
  | branch head trees =>
    obtain ⟨ids, found', -⟩ := shown
    cases found.symm.trans found'
  | leaf content =>
    cases found.symm.trans shown
    obtain ⟨-, place, chars⟩ := covers
    change literal.span = _ at place
    rw [place, holds.slice]
    exact chars.symm

theorem slice_of_element {el : Element}
    (found : (ofTrees trees span).get? id = some (.branch (.element el) ids)) :
    '<' :: el.tag.toList <+: el.span.slice source ∧
      (el.selfClosing = false → isVoidTag el.tag = false →
        ∃ closing, IsClosingTag el.tag closing ∧ closing <:+ el.span.slice source) := by
  obtain ⟨start, opening, body, closing, holds, ⟨begins, ends⟩, place, -⟩ :=
    exists_wraps_of_get? covered (by simp) found
  change el.span = _ at place
  rw [place, holds.slice]
  refine ⟨begins.front.trans (by simp), fun plain ordinary => ?_⟩
  rw [plain, ordinary, Bool.or_self, if_neg Bool.false_ne_true] at ends
  exact ⟨closing, ends, List.suffix_append _ _⟩

theorem tiles_of_element {el : Element}
    (found : (ofTrees trees span).get? id = some (.branch (.element el) ids)) (filled : ids ≠ []) :
    ∃ first last, el.span.start.Before first ∧ (ofTrees trees span).Tiles first ids last ∧
      last.Before el.span.stop := by
  obtain ⟨start, opening, body, closing, -, wraps, place, tiles, within⟩ :=
    exists_wraps_of_get? covered (by simp) found
  change el.span = _ at place
  rw [Position.after_append, Position.after_append] at place
  -- An element that has children is not a lone tag, so that its end tag stands behind them.
  have ended : closing ≠ [] := by
    obtain ⟨-, ends⟩ := wraps
    split at ends
    · exact absurd ends.1 (within filled)
    · exact ends.ne_nil
  rw [place]
  exact ⟨_, _, Position.before_after _ wraps.ne_nil, tiles, Position.before_after _ ended⟩

theorem tiles_of_block {block : Block}
    (found : (ofTrees trees span).get? id = some (.branch (.block block) ids)) :
    block.span.start.Before block.bodySpan.start ∧
      (ofTrees trees span).Tiles block.bodySpan.start ids block.bodySpan.stop ∧
      block.bodySpan.stop.Before block.span.stop := by
  obtain ⟨start, opening, body, closing, -, ⟨begins, bodySpan, ends⟩, place, tiles, -⟩ :=
    exists_wraps_of_get? covered (by simp) found
  change block.span = _ at place
  rw [Position.after_append, Position.after_append] at place
  rw [place, bodySpan]
  exact ⟨Position.before_after _ begins, tiles, Position.before_after _ ends.ne_nil⟩

theorem slice_of_block {block : Block}
    (found : (ofTrees trees span).get? id = some (.branch (.block block) ids)) :
    ∃ closing, IsClosingMustache block.path.name closing ∧ closing <:+ block.span.slice source := by
  obtain ⟨start, opening, body, closing, holds, ⟨-, -, ends⟩, place, -⟩ :=
    exists_wraps_of_get? covered (by simp) found
  change block.span = _ at place
  rw [place, holds.slice]
  exact ⟨closing, ends, List.suffix_append _ _⟩

end Covered

/-- The spans of a template that was read tile its source. -/
theorem isTiled_of_read (found : read source = .ok template) : template.IsTiled source := by
  obtain ⟨trees, cursor, finished, rfl⟩ := exists_trees_of_read found
  obtain ⟨covered, ended⟩ := Tree.coversAll_of_read finished
  rw [ended]
  exact {
    root := ⟨_, get?_root_ofTrees trees _, covered.tiles (shownAll_ofTrees trees _)⟩
    filled := fun _ _ => start_before_stop covered
    text := fun _ _ => slice_of_text covered
    element := fun _ _ _ => slice_of_element covered
    children := fun _ _ _ => tiles_of_element covered
    body := fun _ _ _ => tiles_of_block covered
    block := fun _ _ _ => slice_of_block covered }

/-- A block on two lines in an element whose tags stand on two more. -/
theorem isTiled_of_nested :
    let source := "<box>\n\x7b\x7b#if x\x7d\x7da\nb\x7b\x7b~/ if ~\x7d\x7d</box\n>"
    ∃ template, read source = .ok template ∧ template.IsTiled source ∧
      (template.get? 3).map Node.span = some ⟨⟨2, 0⟩, ⟨3, 12⟩⟩ ∧
      (template.get? 3).map (fun node => node.span.slice source) =
        some "\x7b\x7b#if x\x7d\x7da\nb\x7b\x7b~/ if ~\x7d\x7d".toList ∧
      (template.get? 4).map (fun node => node.span.slice source) = some source.toList := by
  intro source
  have facts : (read source).toOption.any (fun template =>
      (template.get? 3).map Node.span = some ⟨⟨2, 0⟩, ⟨3, 12⟩⟩ &&
        (template.get? 3).map (fun node => node.span.slice source) =
          some "\x7b\x7b#if x\x7d\x7da\nb\x7b\x7b~/ if ~\x7d\x7d".toList &&
        (template.get? 4).map (fun node => node.span.slice source) = some source.toList) = true := by
    decide +kernel
  obtain ⟨template, found, checked⟩ := exists_of_any facts
  simp only [Bool.and_eq_true, decide_eq_true_eq] at checked
  obtain ⟨⟨span, block⟩, element⟩ := checked
  exact ⟨template, found, isTiled_of_read found, span, block, element⟩

end Template

end LayoutMarkup
