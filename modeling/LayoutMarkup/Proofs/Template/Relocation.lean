import LayoutMarkup.Proofs.Call.Relocation
import LayoutMarkup.Proofs.Template.Covering
import LayoutMarkup.Proofs.Template.Spans

/-! Templates that are read at another place, and behind other trees. The same pieces come out of the
same text, with all of their spans moved, and the trees that were there before stay in front of the new
ones. -/

namespace LayoutMarkup

section

variable (move : Position → Position)

def AttributeValue.relocate : AttributeValue → AttributeValue
  | .text literal => .text (literal.relocate move)
  | .mustache call => .mustache (call.relocate move)
  | .concat parts span => .concat (relocateParts move parts) (span.relocate move)

def Attribute.relocate (attr : Attribute) : Attribute :=
  ⟨attr.name, attr.value.relocate move, attr.span.relocate move⟩

def Element.relocate (element : Element) : Element where
  tag := element.tag
  attributes := element.attributes.map (Attribute.relocate move)
  selfClosing := element.selfClosing
  span := element.span.relocate move

def Block.relocate (block : Block) : Block where
  path := block.path.relocate move
  params := relocateParams move block.params
  hash := relocateHash move block.hash
  bodySpan := block.bodySpan.relocate move
  span := block.span.relocate move

def Comment.relocate (comment : Comment) : Comment :=
  ⟨comment.value, comment.html, comment.span.relocate move⟩

def Leaf.relocate : Leaf → Leaf
  | .text literal => .text (literal.relocate move)
  | .mustache call => .mustache (call.relocate move)
  | .comment remark => .comment (remark.relocate move)

def Head.relocate : Head → Head
  | .program span => .program (span.relocate move)
  | .element el => .element (el.relocate move)
  | .block inner => .block (inner.relocate move)

namespace Tree

mutual

/-- A tree with every place in it moved. -/
def relocate : Tree → Tree
  | .leaf content => .leaf (content.relocate move)
  | .branch head trees => .branch (head.relocate move) (relocateAll trees)

def relocateAll : List Tree → List Tree
  | [] => []
  | tree :: trees => tree.relocate :: relocateAll trees

end

theorem relocateAll_eq_map (trees : List Tree) : relocateAll move trees = trees.map (relocate move) := by
  induction trees with
  | nil => rfl
  | cons tree trees ih => exact congrArg (tree.relocate move :: ·) ih

end Tree

theorem Attribute.withoutSpans_relocate (attr : Attribute) :
    (attr.relocate move).withoutSpans = attr.withoutSpans := by
  obtain ⟨name, value, span⟩ := attr
  cases value with
  | text literal => rfl
  | mustache call =>
    exact congrArg (fun call => Attribute.mk name (.mustache call) .nowhere)
      (call.withoutSpans_relocate move)
  | concat parts around =>
    exact congrArg (fun parts => Attribute.mk name (.concat parts .nowhere) .nowhere)
      (partsWithoutSpans_relocate move parts)

theorem Head.withoutSpans_relocate (head : Head) :
    (head.relocate move).withoutSpans = head.withoutSpans := by
  cases head with
  | program span => rfl
  | element el =>
    have attributes : (Attribute.withoutSpans ∘ Attribute.relocate move) = Attribute.withoutSpans :=
      funext (Attribute.withoutSpans_relocate move)
    simp [relocate, withoutSpans, Element.relocate, Element.withoutSpans, attributes]
  | block inner =>
    simp only [relocate, withoutSpans, Block.relocate, Block.withoutSpans,
      paramsWithoutSpans_relocate, hashWithoutSpans_relocate]
    rfl

theorem Leaf.withoutSpans_relocate (content : Leaf) :
    (content.relocate move).withoutSpans = content.withoutSpans := by
  cases content with
  | text literal => rfl
  | mustache call => exact congrArg Leaf.mustache (call.withoutSpans_relocate move)
  | comment remark => rfl

namespace Tree

mutual

theorem withoutSpans_relocate :
    ∀ tree : Tree, (tree.relocate move).withoutSpans = tree.withoutSpans
  | .leaf content => congrArg leaf (content.withoutSpans_relocate move)
  | .branch head trees =>
    congrArg₂ branch (head.withoutSpans_relocate move) (withoutSpansAll_relocateAll trees)

/-- Only the spans of trees are moved. -/
theorem withoutSpansAll_relocateAll :
    ∀ trees : List Tree, withoutSpansAll (relocateAll move trees) = withoutSpansAll trees
  | [] => rfl
  | tree :: trees =>
    congrArg₂ List.cons tree.withoutSpans_relocate (withoutSpansAll_relocateAll trees)

end

end Tree

end

variable {move : Position → Position}

theorem relocateParts_append (first second : List Part) :
    relocateParts move (first ++ second) = relocateParts move first ++ relocateParts move second := by
  induction first with
  | nil => rfl
  | cons part rest ih => cases part <;> simp [relocateParts, ih]

theorem Part.ofStretch_relocate (move : Position → Position) (stretch : List Char) (span : Span) :
    relocateParts move (ofStretch stretch span) = ofStretch stretch (span.relocate move) := by
  unfold ofStretch
  split <;> rfl

namespace Cursor

theorem valueOfParts_relocate (parts : List Part) (span : Span) :
    (valueOfParts parts span).relocate move =
      valueOfParts (relocateParts move parts) (span.relocate move) := by
  match parts with
  | [] => rfl
  | [.text _] => rfl
  | [.mustache _] => rfl
  | .text _ :: .text _ :: _ => rfl
  | .text _ :: .mustache _ :: _ => rfl
  | .mustache _ :: .text _ :: _ => rfl
  | .mustache _ :: .mustache _ :: _ => rfl

variable {cursor : Cursor} (carries : Position.Carries move)
  (begun : Position.start.UpTo cursor.position)

include carries begun

theorem readParts_relocate (quote : Char) : (cursor.relocate move).readParts quote =
    relocateResult move (Prod.map (relocateParts move) (relocate move)) (cursor.readParts quote) := by
  induction size : cursor.rest.length using Nat.strongRecOn generalizing cursor with
  | ind count ih =>
    have literal := Part.ofStretch_relocate move (literalStretch quote cursor.rest)
      ⟨cursor.position, (cursor.skip (literalStretch quote cursor.rest).length).position⟩
    have reached := cursor.reaches_skip (literalStretch quote cursor.rest).length
    have bound := cursor.length_skip_le (literalStretch quote cursor.rest).length
    rw [readParts_eq, readParts_eq cursor]
    dsimp only
    rw [rest_relocate, skip_relocate carries begun]
    generalize cursor.skip (literalStretch quote cursor.rest).length = behind at literal reached bound ⊢
    have front := begun.trans reached.upTo
    rw [readMustache_relocate carries front, peek?_relocate]
    cases behind.peek? with
    | none => rfl
    | some c =>
      by_cases same : c = quote
      · simp only [same, if_true, relocateResult, Prod.map, literal]
        rfl
      · simp only [same, if_false]
        cases step : behind.readMustache with
        | error fault => rfl
        | ok found =>
          obtain ⟨call, after⟩ := found
          have shorter : after.rest.length < count :=
            size ▸ Nat.lt_of_lt_of_le (length_of_readMustache step) bound
          have onward := ih after.rest.length shorter
            (front.trans (span_of_readMustache step).1.upTo) rfl
          simp only [relocateResult, Prod.map, onward]
          cases after.readParts quote with
          | error fault => rfl
          | ok rest =>
            obtain ⟨parts, last⟩ := rest
            simp only [relocateParts_append, literal]
            rfl

theorem readValue_relocate : (cursor.relocate move).readValue =
    relocateResult move (Prod.map (AttributeValue.relocate move) (relocate move)) cursor.readValue := by
  have inside : Position.start.UpTo (cursor.skip 1).position := begun.trans (cursor.reaches_skip 1).upTo
  unfold readValue
  simp only [sees_relocate, rest_relocate, peek?_relocate, run_relocate, skip_relocate carries begun,
    readParts_relocate carries inside, readMustache_relocate carries begun]
  split
  · cases step : (cursor.skip 1).readParts (cursor.peek?.getD '"') with
    | error fault => rfl
    | ok found =>
      obtain ⟨parts, last⟩ := found
      have behind := inside.trans (reaches_of_readParts step).upTo
      simp only [relocateResult, Prod.map, skip_relocate carries behind, valueOfParts_relocate]
      rfl
  · split
    · cases cursor.readMustache with
      | error fault => rfl
      | ok found => rfl
    · rfl

theorem readAttribute_relocate : (cursor.relocate move).readAttribute =
    relocateResult move (Prod.map (Attribute.relocate move) (relocate move)) cursor.readAttribute := by
  have reached := cursor.reaches_skip (cursor.run isAttributeNameChar).length
  unfold readAttribute
  dsimp only
  rw [run_relocate,
    skip_relocate carries begun]
  generalize cursor.skip (cursor.run isAttributeNameChar).length = behind at reached ⊢
  have front := begun.trans reached.upTo
  rw [eat?_relocate carries front]
  split
  · rfl
  · cases eaten : behind.eat? ['='] with
    | none => rfl
    | some equals =>
      have value := front.trans (Reaches.upTo ⟨_, passes_of_eat? eaten⟩)
      simp only [Option.map_some, readValue_relocate carries value]
      cases equals.readValue with
      | error fault => rfl
      | ok found => rfl

theorem readAttributes_relocate (tag : String) : (cursor.relocate move).readAttributes tag =
    relocateResult move (Prod.map (List.map (Attribute.relocate move)) (Prod.map id (relocate move)))
      (cursor.readAttributes tag) := by
  induction size : cursor.rest.length using Nat.strongRecOn generalizing cursor with
  | ind count ih =>
    have reached : cursor.Reaches cursor.skipBlank := cursor.reaches_skip _
    have bound := cursor.length_skipBlank_le
    rw [readAttributes_eq, readAttributes_eq cursor, skipBlank_relocate carries begun]
    generalize cursor.skipBlank = front at reached bound ⊢
    have begun' := begun.trans reached.upTo
    simp only [sees_relocate, atEnd_relocate, skip_relocate carries begun',
      readAttribute_relocate carries begun']
    split
    · rfl
    split
    · rfl
    split
    · rfl
    cases step : front.readAttribute with
    | error fault => rfl
    | ok found =>
      obtain ⟨attr, after⟩ := found
      have shorter : after.rest.length < count :=
        size ▸ Nat.lt_of_lt_of_le (length_of_readAttribute step) bound
      have onward := ih after.rest.length shorter (begun'.trans (reaches_of_readAttribute step).upTo) rfl
      simp only [relocateResult, Prod.map, onward]
      cases after.readAttributes tag with
      | error fault => rfl
      | ok rest => rfl

end Cursor

def Opening.relocate (move : Position → Position) : Opening → Opening
  | .element tag attributes start =>
    .element tag (attributes.map (Attribute.relocate move)) (move start)
  | .block call start bodyStart => .block (call.relocate move) (move start) (move bodyStart)

theorem Opening.missing_relocate (opening : Opening) :
    (opening.relocate move).missing = opening.missing := by
  cases opening <;> rfl

namespace Tree.Reading

/-- Trees that come behind earlier ones unless a branch is open around them; latest first, all of them. -/
def onto (earlier : List Tree) : List OpenBranch → List Tree → List Tree
  | [], trees => trees ++ earlier
  | _ :: _, trees => trees

def branchesBehind (move : Position → Position) (earlier : List Tree) :
    List OpenBranch → List OpenBranch
  | [] => []
  | ⟨opening, before⟩ :: outer =>
    ⟨opening.relocate move, onto earlier outer (relocateAll move before)⟩ ::
      branchesBehind move earlier outer

/-- A reading at another place, with the earlier trees before its own. -/
def behind (move : Position → Position) (earlier : List Tree) (reading : Reading) : Reading :=
  ⟨branchesBehind move earlier reading.branches,
    onto earlier reading.branches (relocateAll move reading.siblings)⟩

section

variable (earlier : List Tree) (reading : Reading)

theorem onto_cons (outer : List OpenBranch) (tree : Tree) (trees : List Tree) :
    onto earlier outer (tree :: trees) = tree :: onto earlier outer trees := by
  cases outer <;> rfl

theorem behind_push (tree : Tree) :
    (reading.push tree).behind move earlier = (reading.behind move earlier).push (tree.relocate move) :=
  congrArg (mk _) (onto_cons earlier reading.branches _ _)

theorem behind_enter (opening : Opening) :
    (reading.enter opening).behind move earlier =
      (reading.behind move earlier).enter (opening.relocate move) := rfl

/-- The siblings of an open branch do not mind the earlier trees. -/
theorem siblings_behind {branch : OpenBranch} {outer : List OpenBranch}
    (inside : reading.branches = branch :: outer) :
    (reading.behind move earlier).siblings.reverse = relocateAll move reading.siblings.reverse := by
  simp only [behind, inside, onto, relocateAll_eq_map, List.map_reverse]

theorem branches_behind {opening : Opening} {before : List Tree} {outer : List OpenBranch}
    (inside : reading.branches = ⟨opening, before⟩ :: outer) :
    (reading.behind move earlier).branches =
      ⟨opening.relocate move, onto earlier outer (relocateAll move before)⟩ ::
        branchesBehind move earlier outer := by
  rw [behind, inside, branchesBehind]

/-- A branch is closed behind the earlier trees. -/
theorem behind_close (outer : List OpenBranch) (tree : Tree) (before : List Tree) :
    behind move earlier ⟨outer, tree :: before⟩ =
      ⟨branchesBehind move earlier outer,
        tree.relocate move :: onto earlier outer (relocateAll move before)⟩ :=
  congrArg (mk _) (onto_cons earlier outer _ _)

end

section

variable {cursor : Cursor} (carries : Position.Carries move)
  (begun : Position.start.UpTo cursor.position) (earlier : List Tree) (reading : Reading)

include carries begun

theorem readText_relocate : (reading.behind move earlier).readText (cursor.relocate move) =
    Prod.map (behind move earlier) (Cursor.relocate move) (reading.readText cursor) := by
  simp only [readText, Prod.map, behind_push, Cursor.rest_relocate,
    Cursor.skip_relocate carries begun]
  rfl

theorem readMustache_relocate : (reading.behind move earlier).readMustache (cursor.relocate move) =
    relocateResult move (Prod.map (behind move earlier) (Cursor.relocate move))
      (reading.readMustache cursor) := by
  unfold readMustache
  rw [Cursor.readMustache_relocate carries begun]
  cases cursor.readMustache with
  | error fault => rfl
  | ok found => simp only [relocateResult, Prod.map, behind_push]; rfl

theorem readComment_relocate (form : CommentForm) :
    (reading.behind move earlier).readComment (cursor.relocate move) form =
      relocateResult move (Prod.map (behind move earlier) (Cursor.relocate move))
        (reading.readComment cursor form) := by
  have front := begun.trans (cursor.reaches_skip form.opening).upTo
  simp only [readComment, Cursor.skip_relocate carries begun, Cursor.pastTerminator?_relocate carries front]
  cases (cursor.skip form.opening).pastTerminator? form.terminator with
  | none => rfl
  | some found => simp only [Option.map_some, relocateResult, Prod.map, behind_push]; rfl

theorem openElement_relocate : (reading.behind move earlier).openElement (cursor.relocate move) =
    relocateResult move (Prod.map (behind move earlier) (Cursor.relocate move))
      (reading.openElement cursor) := by
  have front := begun.trans (cursor.reaches_skip 1).upTo
  simp only [openElement, Cursor.skip_relocate carries begun]
  generalize cursor.skip 1 = inside at front ⊢
  have named := front.trans (inside.reaches_skip (inside.run isTagChar).length).upTo
  rw [Cursor.run_relocate,
    Cursor.skip_relocate carries front, Cursor.readAttributes_relocate carries named]
  cases (inside.skip (inside.run isTagChar).length).readAttributes
      (String.ofList (inside.run isTagChar)) with
  | error fault => rfl
  | ok found =>
    obtain ⟨attributes, selfClosing, after⟩ := found
    simp only [relocateResult, Prod.map, id]
    split
    · simp only [behind_push]; rfl
    · simp only [behind_enter]; rfl

theorem closeElement_relocate : (reading.behind move earlier).closeElement (cursor.relocate move) =
    relocateResult move (Prod.map (behind move earlier) (Cursor.relocate move))
      (reading.closeElement cursor) := by
  have front := begun.trans (cursor.reaches_skip 2).upTo
  have named := begun.trans (reaches_behindTag cursor 2).upTo
  have blank : Position.start.UpTo (behindTag cursor 2).skipBlank.position :=
    named.trans ((behindTag cursor 2).reaches_skip _).upTo
  have tagEnd : ((cursor.skip 2).skip ((cursor.skip 2).run isTagChar).length) = behindTag cursor 2 := rfl
  unfold closeElement
  rw [Cursor.skip_relocate carries begun]
  dsimp only
  rw [Cursor.run_relocate,
    Cursor.skip_relocate carries front, tagEnd, Cursor.skipBlank_relocate carries named,
    Cursor.eat?_relocate carries blank]
  cases inside : reading.branches with
  | nil =>
    simp only [behind, inside, branchesBehind]
    rfl
  | cons branch outer =>
    obtain ⟨opening, before⟩ := branch
    rw [branches_behind earlier reading inside, siblings_behind earlier reading inside]
    cases opening with
    | block call start bodyStart => rfl
    | element tag attributes start =>
      simp only [Opening.relocate]
      split
      · rfl
      · cases (behindTag cursor 2).skipBlank.eat? ['>'] with
        | none => rfl
        | some after =>
          simp only [Option.map_some, relocateResult, Prod.map, behind_close]
          rfl

theorem openBlock_relocate (opening : Nat) :
    (reading.behind move earlier).openBlock (cursor.relocate move) opening =
      relocateResult move (Prod.map (behind move earlier) (Cursor.relocate move))
        (reading.openBlock cursor opening) := by
  have front := begun.trans (cursor.reaches_skip opening).upTo
  unfold openBlock
  rw [Cursor.skip_relocate carries begun, Cursor.position_relocate,
    Cursor.readCall_relocate carries front]
  cases (cursor.skip opening).readCall cursor.position with
  | error fault => rfl
  | ok found =>
    simp only [relocateResult, Prod.map, behind_enter]
    rfl

theorem closeBlock_relocate (opening : Nat) :
    (reading.behind move earlier).closeBlock (cursor.relocate move) opening =
      relocateResult move (Prod.map (behind move earlier) (Cursor.relocate move))
        (reading.closeBlock cursor opening) := by
  have front := begun.trans (cursor.reaches_skip opening).upTo
  unfold closeBlock
  rw [Cursor.skip_relocate carries begun, Cursor.readPath_relocate carries front]
  cases inside : reading.branches with
  | nil =>
    simp only [behind, inside, branchesBehind]
    rfl
  | cons branch outer =>
    obtain ⟨open', before⟩ := branch
    rw [branches_behind earlier reading inside, siblings_behind earlier reading inside]
    cases open' with
    | element tag attributes start => rfl
    | block call start bodyStart =>
      obtain ⟨callee, params, hash, span⟩ := call
      simp only [Opening.relocate, Call.relocate]
      cases found : (cursor.skip opening).readPath with
      | error fault => rfl
      | ok found' =>
        obtain ⟨path, named⟩ := found'
        obtain ⟨gap, -, passed⟩ := Cursor.passes_of_readPath found
        have tail := front.trans (Cursor.Reaches.upTo ⟨_, passed⟩)
        simp only [relocateResult, Prod.map, Path.relocate, Cursor.readClose_relocate carries tail]
        split
        · rfl
        · cases named.readClose with
          | error fault => rfl
          | ok after =>
            simp only [behind_close]
            rfl

theorem readMarkup_relocate : (reading.behind move earlier).readMarkup (cursor.relocate move) =
    relocateResult move (Prod.map (behind move earlier) (Cursor.relocate move))
      (reading.readMarkup cursor) := by
  unfold readMarkup
  rw [Cursor.rest_relocate]
  cases Markup.first cursor.rest with
  | closingTag => exact closeElement_relocate carries begun earlier reading
  | blockClose opening => exact closeBlock_relocate carries begun earlier reading opening
  | elseMark => rfl
  | comment form => exact readComment_relocate carries begun earlier reading form
  | blockOpen opening => exact openBlock_relocate carries begun earlier reading opening
  | tripleStash => rfl
  | mustache => exact readMustache_relocate carries begun earlier reading
  | startTag => exact openElement_relocate carries begun earlier reading

/-- One piece of the source does the same at another place and behind other trees. -/
theorem step_relocate : (reading.behind move earlier).step (cursor.relocate move) =
    relocateResult move (Prod.map (behind move earlier) (Cursor.relocate move))
      (reading.step cursor) := by
  unfold step
  rw [Cursor.rest_relocate,
    readMarkup_relocate carries begun, readText_relocate carries begun]
  split <;> rfl

end

/-- The whole run does the same, and its trees come behind the earlier ones. -/
theorem run_relocate (carries : Position.Carries move) (earlier : List Tree) (reading : Reading)
    {cursor : Cursor} (begun : Position.start.UpTo cursor.position) :
    (reading.behind move earlier).run (cursor.relocate move) =
      relocateResult move
        (Prod.map (fun trees => earlier.reverse ++ relocateAll move trees) (Cursor.relocate move))
        (reading.run cursor) := by
  fun_induction run reading cursor with
  | case1 reading cursor finished closed =>
    rw [run_eq, Cursor.rest_relocate, if_pos finished]
    simp only [behind, closed, branchesBehind, onto, relocateResult, Prod.map, List.reverse_append,
      relocateAll_eq_map, List.map_reverse]
  | case2 reading cursor finished innermost outer opened =>
    obtain ⟨opening, before⟩ := innermost
    rw [run_eq, Cursor.rest_relocate, if_pos finished, branches_behind earlier reading opened]
    simp only [Opening.missing_relocate]
    rfl
  | case3 reading cursor filled fault step =>
    rw [run_eq, Cursor.rest_relocate, if_neg filled, step_relocate carries begun, step]
    rfl
  | case4 reading cursor filled reading' after step ih =>
    have onward := begun.trans (reaches_of_moves (moves_of_step step)).upTo
    rw [run_eq, Cursor.rest_relocate, if_neg filled, step_relocate carries begun, step]
    exact ih onward

end Tree.Reading

end LayoutMarkup
