import LayoutMarkup.Proofs.Template.Acyclic
import LayoutMarkup.Proofs.Template.Blindness

/-! The texts of a template in its printed form. An element that closes itself shows nothing of what has
been put below it; all other texts are printed one behind the other, in document order. -/

namespace LayoutMarkup

/-- Pieces that stand in a text one behind the other, with anything around them. -/
def OccurInOrder : List (List Char) → List Char → Prop
  | [], _ => True
  | piece :: pieces, text => ∃ before behind, text = before ++ piece ++ behind ∧ OccurInOrder pieces behind

namespace OccurInOrder

variable {pieces others : List (List Char)} {text tail : List Char}

theorem of_suffix (before : List Char) (occur : OccurInOrder pieces text) :
    OccurInOrder pieces (before ++ text) := by
  cases pieces with
  | nil => trivial
  | cons piece pieces =>
    obtain ⟨front, behind, rfl, rest⟩ := occur
    exact ⟨before ++ front, behind, by simp, rest⟩

theorem append (first : OccurInOrder pieces text) (second : OccurInOrder others tail) :
    OccurInOrder (pieces ++ others) (text ++ tail) := by
  induction pieces generalizing text with
  | nil => exact second.of_suffix text
  | cons piece pieces ih =>
    obtain ⟨front, behind, rfl, rest⟩ := first
    exact ⟨front, behind ++ tail, by simp, ih rest⟩

/-- What stands in a text stands in it as well with something put around it. -/
theorem around (before behind : List Char) (occur : OccurInOrder pieces text) :
    OccurInOrder pieces (before ++ text ++ behind) := by
  have all : OccurInOrder (pieces ++ []) (before ++ text ++ behind) :=
    (occur.of_suffix before).append trivial
  rwa [List.append_nil] at all

/-- What stands in each of several texts stands in all of them together. -/
theorem flatten {write : NodeId → Option (List Char)} {shown : NodeId → List (List Char)}
    (each : ∀ id text, write id = some text → OccurInOrder (shown id) text) {ids : List NodeId}
    {texts : List (List Char)} (written : ids.mapM write = some texts) :
    OccurInOrder (ids.flatMap shown) texts.flatten := by
  induction ids generalizing texts with
  | nil => trivial
  | cons id ids ih =>
    simp only [List.mapM_cons, Option.bind_eq_bind, Option.bind_eq_some_iff, Option.pure_def,
      Option.some.injEq] at written
    obtain ⟨text, here, texts, rest, rfl⟩ := written
    exact (each id text here).append (ih rest)

end OccurInOrder

/-- A head shows what stands in its written content, if it does not hide its children. -/
theorem Head.occurInOrder_write {head : Head} {childless : Bool} {pieces : List (List Char)}
    {content : List Char} (visible : head.hidesChildren = false) (none : childless = true → pieces = [])
    (occur : OccurInOrder pieces content) : OccurInOrder pieces (head.write childless content) := by
  cases head with
  | program span => exact occur
  | block inner => exact occur.around _ _
  | element el =>
    have ordinary : el.selfClosing = false := visible
    rw [write, ordinary, Bool.false_or]
    split
    · rename_i whole
      rw [none (Bool.and_eq_true_iff.mp whole).1]
      trivial
    · exact occur.around _ _

/-- The characters of a text. -/
def Node.text? : Node → Option (List Char)
  | .leaf (.text literal) => some literal.chars.toList
  | _ => none

theorem Leaf.occurInOrder_write (content : Leaf) :
    OccurInOrder (Node.leaf content).text?.toList content.write := by
  cases content with
  | text literal => exact ⟨[], [], by simp [write], trivial⟩
  | mustache call => trivial
  | comment remark => trivial

namespace Template

/-- The characters of the text at an id. -/
def text? (template : Template) (id : NodeId) : Option (List Char) := template.get? id >>= Node.text?

/-- Whether an id is that of an element that closes itself. -/
def hides (template : Template) (id : NodeId) : Bool := (template.element? id).any Element.selfClosing

/-- A node and all below it that is printed, down to some depth, in document order. -/
def shownFrom (template : Template) : Nat → NodeId → List NodeId
  | 0, _ => []
  | depth + 1, id =>
    id :: if template.hides id then [] else (template.children id).flatMap (shownFrom template depth)

/-- The nodes that are printed, in document order. -/
def shown (template : Template) : List NodeId := template.shownFrom (template.size + 1) root

variable {template : Template} {depth : Nat} {id : NodeId} {text : List Char}

theorem hides_of_get? {head : Head} {ids : List NodeId} (found : template.get? id = some (.branch head ids)) :
    template.hides id = head.hidesChildren := by
  simp [hides, element?, found, Node.element?, Head.hidesChildren]

theorem text?_of_branch {head : Head} {ids : List NodeId}
    (found : template.get? id = some (.branch head ids)) : template.text? id = none := by
  simp [text?, found, Node.text?]

/-- The printed texts stand in what is written, one behind the other. -/
theorem occurInOrder_of_writeNode (written : template.writeNode depth id = some text) :
    OccurInOrder ((template.shownFrom depth id).filterMap template.text?) text := by
  induction depth generalizing id text with
  | zero => cases written
  | succ depth ih =>
    rw [writeNode] at written
    cases found : template.get? id with
    | none => simp [found] at written
    | some node =>
      have children := children_of_get? found
      cases node with
      | leaf content =>
        have here : (template.shownFrom (depth + 1) id).filterMap template.text? =
            (Node.leaf content).text?.toList := by
          cases chars : (Node.leaf content).text? <;>
            simp [shownFrom, children, Node.children, text?, found, chars]
        simp only [found, Option.some.injEq] at written
        rw [here, ← written]
        exact content.occurInOrder_write
      | branch head ids =>
        rw [shownFrom, List.filterMap_cons_none (text?_of_branch found), hides_of_get? found, children]
        simp only [found] at written
        cases hidden : head.hidesChildren with
        | true => trivial
        | false =>
          simp only [hidden, Bool.false_eq_true, if_false] at written ⊢
          obtain ⟨texts, each, rfl⟩ := Option.map_eq_some_iff.mp written
          rw [List.filterMap_flatMap]
          refine Head.occurInOrder_write hidden ?_ (.flatten (fun _ _ => ih) each)
          intro childless
          rw [Node.children, List.isEmpty_iff.mp childless]
          rfl

theorem mapM_congr {α β : Type} {first second : α → Option β} {items : List α}
    (same : ∀ item ∈ items, first item = second item) : items.mapM first = items.mapM second := by
  induction items with
  | nil => rfl
  | cons item items ih =>
    rw [List.mapM_cons, List.mapM_cons, same item List.mem_cons_self,
      ih fun other member => same other (List.mem_cons_of_mem item member)]

/-- Where nothing that is printed differs, the same is printed. -/
theorem writeNode_congr {first second : Template}
    (same : ∀ other ∈ first.shownFrom depth id, second.get? other = first.get? other) :
    second.writeNode depth id = first.writeNode depth id := by
  induction depth generalizing id with
  | zero => rfl
  | succ depth ih =>
    rw [writeNode, writeNode, same id List.mem_cons_self]
    cases found : first.get? id with
    | none => rfl
    | some node =>
      cases node with
      | leaf content => rfl
      | branch head ids =>
        cases hidden : head.hidesChildren with
        | true => simp [hidden]
        | false =>
          have below : ids.mapM (second.writeNode depth) = ids.mapM (first.writeNode depth) := by
            apply mapM_congr
            intro child member
            apply ih
            intro other inside
            apply same
            rw [shownFrom, hides_of_get? found, hidden, children_of_get? found]
            exact List.mem_cons_of_mem id (List.mem_flatMap.mpr ⟨child, member, inside⟩)
          simp only [hidden, Bool.false_eq_true, if_false, below]

/-- What stands at an id that is not printed leaves no trace. -/
theorem print_set_of_not_mem_shown (node : Node) (hidden : id ∉ template.shown) :
    (template.set id node).print = template.print := by
  have size : (template.set id node).size = template.size := by simp [Template.size, set]
  rw [print, print, size]
  refine congrArg _ (writeNode_congr fun other inside => ?_)
  rw [get?_set, if_neg]
  rintro rfl
  exact hidden inside

/-- If no text stands below an element that closes itself, all texts are printed. -/
theorem filterMap_shownFrom (ends : template.EndsWithin depth id)
    (plain : ∀ other, template.Reaches id other → template.hides other = true →
      ∀ below, template.Reaches other below → template.text? below = none) :
    (template.shownFrom depth id).filterMap template.text? =
      (template.preorder depth id).filterMap template.text? := by
  induction depth generalizing id with
  | zero => exact ends.elim
  | succ depth ih =>
    rw [shownFrom, preorder, List.filterMap_cons, List.filterMap_cons]
    have below : (if template.hides id then [] else
          (template.children id).flatMap (template.shownFrom depth)).filterMap template.text? =
        ((template.children id).flatMap (template.preorder depth)).filterMap template.text? := by
      cases hidden : template.hides id with
      | true =>
        symm
        rw [if_pos rfl, List.filterMap_nil, List.filterMap_eq_nil_iff]
        intro other inside
        obtain ⟨child, member, inside⟩ := List.mem_flatMap.mp inside
        exact plain id .refl hidden other (.head member ((mem_preorder_iff (ends child member)).mp inside))
      | false =>
        rw [if_neg Bool.false_ne_true, List.filterMap_flatMap, List.filterMap_flatMap]
        refine List.flatMap_congr fun child member => ih (ends child member) ?_
        exact fun other reached => plain other (.head member reached)
    rw [below]

/-- A template without cycles, whose nodes exist, is printed with all texts that do not stand below an
element that closes itself, one behind the other and in document order; what does stand there leaves no
trace. So if no text stands there, the printed form holds the texts of all nodes. -/
theorem print_shows_texts (acyclic : template.IsAcyclic)
    (present : ∀ id, template.Reaches root id → ∃ node, template.get? id = some node) :
    ∃ text, template.print = some text ∧
      OccurInOrder (template.shown.filterMap template.text?) text.toList ∧
      ((∀ id, template.Reaches root id → template.hides id = true →
          ∀ below, template.Reaches id below → template.text? below = none) →
        OccurInOrder (template.descendants.filterMap template.text?) text.toList) ∧
      ∀ id node, id ∉ template.shown → (template.set id node).print = some text := by
  have ends := endsWithin_of_isAcyclic acyclic
  obtain ⟨chars, written⟩ := exists_writeNode ends fun id inside =>
    present id ((mem_preorder_iff ends).mp inside)
  have printed : template.print = some (String.ofList chars) := by
    rw [print, written, Option.map_some]
  have occur : OccurInOrder (template.shown.filterMap template.text?) chars :=
    occurInOrder_of_writeNode written
  refine ⟨String.ofList chars, printed, by rwa [String.toList_ofList], fun plain => ?_, ?_⟩
  · rw [String.toList_ofList, descendants, ← filterMap_shownFrom ends plain]
    exact occur
  · intro id node hidden
    rw [print_set_of_not_mem_shown node hidden, printed]

/-- Of an element that closes itself, with a text below it, and another text behind it, only the other
text is printed. -/
theorem print_shows_texts_but_below_self_closing :
    let template := ofTrees [.branch (.element ⟨"p", [], true, .nowhere⟩) [.leaf (.text (.made "a"))],
      .leaf (.text (.made "b"))] .nowhere
    template.IsAcyclic ∧ (∀ id, template.Reaches root id → ∃ node, template.get? id = some node) ∧
      template.descendants.filterMap template.text? = [['a'], ['b']] ∧
      template.shown.filterMap template.text? = [['b']] ∧ 1 ∉ template.shown ∧
      ∃ text, template.print = some text ∧ text = "<p />b" ∧ OccurInOrder [['b']] text.toList ∧
        ¬ OccurInOrder [['a'], ['b']] text.toList ∧
        (template.set 1 (.leaf (.text (.made "c")))).print = some text := by
  intro template
  have acyclic : template.IsAcyclic := by decide
  have present : ∀ id, template.Reaches root id → ∃ node, template.get? id = some node := by
    intro id reached
    have stored := (isTree_ofTrees _ _).order.mem_iff.mp ((mem_descendants_iff acyclic).mpr reached)
    exact ⟨_, Array.getElem?_eq_getElem (List.mem_range.mp stored)⟩
  have shown : template.shown.filterMap template.text? = [['b']] := by decide
  have hidden : 1 ∉ template.shown := by decide
  obtain ⟨text, printed, occur, -, blind⟩ := print_shows_texts acyclic present
  obtain rfl : text = "<p />b" := Option.some.inj (printed.symm.trans (by decide +kernel))
  rw [shown] at occur
  refine ⟨acyclic, present, by decide, shown, hidden, _, printed, rfl, occur, ?_, blind 1 _ hidden⟩
  rintro ⟨before, behind, whole, -⟩
  have member : 'a' ∈ "<p />b".toList := by
    rw [whole]
    simp
  exact absurd member (by decide)

end Template

end LayoutMarkup
