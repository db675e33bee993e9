import LayoutMarkup.Proofs.Template.Kinds
import LayoutMarkup.Proofs.Template.Reread
import Mathlib.Tactic.Choose

/-! Trees whose written form is legible piece by piece. It is read as nodes of the same kinds if the
trees are clear as well: no text ends with a brace before braces, and no mustache looks like the mark of
something else. -/

namespace LayoutMarkup

/-- A value whose written form is read as one value, whatever stands behind it. -/
def AttributeValue.IsSelfContained (value : AttributeValue) : Prop :=
  ∃ expected, value.ReadsAs expected

/-- A value that is read as one is read as what is known of it if every mustache in it is only a name. -/
theorem AttributeValue.IsSelfContained.exists_readsAs {value : AttributeValue}
    (contained : value.IsSelfContained) (read : value.IsRead) :
    ∃ expected, value.ReadsAs expected ∧ (value.opensNames = true → expected = value.reread) := by
  by_cases names : value.opensNames = true
  · exact ⟨_, readsAs_reread read names, fun _ => rfl⟩
  · obtain ⟨expected, reads⟩ := contained
    exact ⟨expected, reads, fun opens => absurd opens names⟩

/-- Whether a leaf is text that ends with a brace. -/
def Leaf.endsInBrace : Leaf → Bool
  | .text literal => literal.chars.toList.getLast? = some '{'
  | _ => false

/-- What makes a leaf legible before something of a kind. -/
def Leaf.IsLegible (next : Front) : Leaf → Prop
  | .text literal => TextIsRead literal.chars.toList .stop ∧ next ≠ .text
  | .mustache call => call.meets .legible = true
  | .comment remark => remark.IsRead

/-- Whether a leaf is taken for itself before something of a kind. -/
def Leaf.isClear (next : Front) (content : Leaf) : Bool :=
  content.keepsKind && !(content.endsInBrace && next = .brace)

def Head.IsLegible : Head → Prop
  | .program _ => False
  | .element el =>
    TagIsRead el.tag el.attributes ∧ ∀ attr ∈ el.attributes, attr.value.IsSelfContained
  | .block inner => inner.call.meets .legible = true

namespace Tree

mutual

/-- What makes a tree legible before something of a kind. -/
def IsLegible : Tree → Front → Prop
  | .leaf content, next => content.IsLegible next
  | .branch head trees, _ =>
    head.IsLegible ∧ (head.isLone = true → trees = []) ∧ AllLegible trees head.front

def AllLegible : List Tree → Front → Prop
  | [], _ => True
  | tree :: trees, next => IsLegible tree (frontAll trees next) ∧ AllLegible trees next

end

mutual

/-- Whether every leaf of a tree is taken for itself. -/
def isClear : Tree → Front → Bool
  | .leaf content, next => content.isClear next
  | .branch head trees, _ => allClear trees head.front

def allClear : List Tree → Front → Bool
  | [], _ => true
  | tree :: trees, next => isClear tree (frontAll trees next) && allClear trees next

end

/-- A legible text that is clear is as one that was read. -/
theorem textIsRead_of_isClear {literal : Text} {next : Front}
    (legible : (Leaf.text literal).IsLegible next) (clear : (Leaf.text literal).isClear next = true) :
    TextIsRead literal.chars.toList next where
  filled := legible.1.filled
  plain := legible.1.plain
  maximal := legible.2
  unbraced brace := by simpa [Leaf.isClear, Leaf.keepsKind, Leaf.endsInBrace, brace] using clear

/-- A legible tree begins as markup of its kind, unless it is text. -/
theorem front_of_isLegible {tree : Tree} {next : Front} (legible : tree.IsLegible next)
    (markup : tree.front ≠ .text) (tail : List Char) :
    Front.of (tree.write ++ tail) = tree.front := by
  match tree with
  | .leaf (.text literal) => exact absurd rfl markup
  | .leaf (.mustache call) => exact front_braces _
  | .leaf (.comment comment) => exact front_comment comment tail
  | .branch (.program span) trees => exact legible.1.elim
  | .branch (.element element) trees => exact front_element legible.1.1 trees tail
  | .branch (.block block) trees => exact front_braces _

theorem front_of_isClear {tree : Tree} {tail : List Char} (legible : tree.IsLegible (Front.of tail))
    (clear : tree.isClear (Front.of tail) = true) : Front.of (tree.write ++ tail) = tree.front := by
  by_cases markup : tree.front = .text
  · match tree with
    | .leaf (.text literal) => exact front_text (textIsRead_of_isClear legible clear)
    | .leaf (.comment ⟨_, html, _⟩) => cases html <;> cases markup
    | .branch (.element _) _ => cases markup
  · exact front_of_isLegible legible markup tail

theorem front_of_allClear {trees : List Tree} {tail : List Char}
    (legible : AllLegible trees (Front.of tail)) (clear : allClear trees (Front.of tail) = true) :
    Front.of (writeAll trees ++ tail) = frontAll trees (Front.of tail) := by
  induction trees with
  | nil => rfl
  | cons tree trees ih =>
    simp only [AllLegible, allClear, Bool.and_eq_true] at legible clear
    obtain ⟨first, others⟩ := legible
    rw [← ih others clear.2] at first clear
    rw [writeAll, List.append_assoc, front_of_isClear first clear.1]
    rfl

namespace Reading

/-- What is read of an element is what is known of it if every mustache in its texts is only a name. -/
theorem readAs_eq_reread {element : Element} {expected : Attribute → AttributeValue}
    (same : ∀ attr ∈ element.attributes, attr.value.opensNames = true → expected attr = attr.value.reread)
    (names : (Head.element element).keepsKind = true) : element.readAs expected = element.reread := by
  have attributes : element.attributes.map (Attribute.readAs expected) =
      element.attributes.map Attribute.reread := by
    apply List.map_congr_left
    intro attr member
    rw [Attribute.readAs, same attr member (List.all_eq_true.mp names attr member), Attribute.reread]
  rw [Element.readAs, attributes, Element.reread]

mutual

/-- The written form of a legible tree that is clear is read as a tree with the same kinds; this is known
if every mustache in the text of an attribute is only a name. -/
theorem readsAsTree_of_isClear : ∀ (tree : Tree) (next : Front), tree.IsLegible next →
    tree.isClear next = true →
      ∃ expected, ReadsAsTree tree.write expected next ∧ expected.kinds = tree.kinds ∧
        (tree.each (fun _ => true) Head.keepsKind = true → expected = tree.reread)
  | .leaf (.text _), _, legible, clear =>
    ⟨_, readsAsTree_text (textIsRead_of_isClear legible clear), rfl, fun _ => rfl⟩
  | .leaf (.mustache call), next, legible, clear => by
    have plain : startsMark call.path.name.toList = false := by
      simpa [isClear, Leaf.isClear, Leaf.keepsKind, Leaf.endsInBrace] using clear
    exact ⟨_, readsAsTree_mustache next legible plain, rfl, fun _ => rfl⟩
  | .leaf (.comment _), next, legible, _ =>
    ⟨_, readsAsTree_comment next legible, rfl, fun _ => rfl⟩
  | .branch (.program _) _, _, legible, _ => legible.1.elim
  | .branch (.element element) trees, next, ⟨⟨legal, contained⟩, lone, below⟩, clear => by
    have inhabited : Nonempty AttributeValue := ⟨.text (.made "")⟩
    have values := fun attr member =>
      (contained attr member).exists_readsAs (legal.attributes attr member).value
    choose! expected values names using values
    by_cases whole : (element.selfClosing || isVoidTag element.tag) = true
    · obtain rfl := lone whole
      rw [write_lone whole]
      refine ⟨_, readsAsTree_lone next legal values whole, rfl, fun keeps => ?_⟩
      simp only [each, eachAll, Bool.and_true] at keeps
      rw [readAs_eq_reread names keeps, reread, Head.reread, rereadAll]
    · rw [Bool.not_eq_true] at whole
      obtain ⟨inside, reads, same, known⟩ := readsAsTrees_of_allClear trees .angle below clear
      rw [write_between trees whole]
      refine ⟨_, readsAsTree_element next legal values whole reads, by simp [kinds, same]; rfl, ?_⟩
      intro keeps
      simp only [each, Bool.and_eq_true] at keeps
      rw [readAs_eq_reread names keeps.1, known keeps.2, reread, Head.reread]
  | .branch (.block block) trees, next, ⟨met, _, below⟩, clear => by
    obtain ⟨inside, reads, same, known⟩ := readsAsTrees_of_allClear trees .brace below clear
    refine ⟨_, readsAsTree_block next met reads, by simp [kinds, same]; rfl, fun keeps => ?_⟩
    simp only [each, Bool.and_eq_true] at keeps
    rw [known keeps.2, reread, Head.reread]

theorem readsAsTrees_of_allClear : ∀ (trees : List Tree) (next : Front), AllLegible trees next →
    allClear trees next = true →
      ∃ expected, ReadsAsTrees (writeAll trees) expected next ∧ kindsAll expected = kindsAll trees ∧
        (eachAll (fun _ => true) Head.keepsKind trees = true → expected = rereadAll trees)
  | [], next, _, _ => ⟨[], readsAsTrees_nil next, rfl, fun _ => rfl⟩
  | tree :: trees, next, ⟨first, others⟩, clear => by
    simp only [allClear, Bool.and_eq_true] at clear
    obtain ⟨one, reads, same, known⟩ := readsAsTree_of_isClear tree _ first clear.1
    obtain ⟨rest, follow, sames, knowns⟩ := readsAsTrees_of_allClear trees next others clear.2
    refine ⟨one :: rest, readsAsTrees_cons reads follow ?_, by rw [kindsAll, same, sames, kindsAll], ?_⟩
    · rintro tail rfl
      exact front_of_allClear others clear.2
    · intro keeps
      simp only [eachAll, Bool.and_eq_true] at keeps
      rw [known keeps.1, knowns keeps.2, rereadAll]

end

end Reading

/-- Legible trees that are clear are read to the end of their written form. -/
theorem read_of_allClear {trees : List Tree} (legible : AllLegible trees .stop)
    (clear : allClear trees .stop = true) :
    ∃ again cursor, Tree.read (String.ofList (writeAll trees)) = .ok (again, cursor) ∧
      kindsAll again = kindsAll trees ∧
      (eachAll (fun _ => true) Head.keepsKind trees = true → withoutSpansAll again = rereadAll trees) := by
  obtain ⟨expected, reads, kinds, known⟩ := Reading.readsAsTrees_of_allClear trees .stop legible clear
  obtain ⟨again, cursor, ended, same, ran⟩ :=
    reads .start (.ofString (String.ofList (writeAll trees))) [] (by simp [Cursor.ofString]) rfl
  refine ⟨again, cursor, ?_, ?_, fun keeps => same.trans (known keeps)⟩
  · rw [read, ran, Reading.run, dif_pos ended]
    simp [Reading.start]
  · rw [← kindsAll_withoutSpans, same, kinds]

end Tree

end LayoutMarkup
