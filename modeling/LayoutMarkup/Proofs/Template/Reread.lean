import LayoutMarkup.Proofs.Template.Each
import LayoutMarkup.Proofs.Template.Pieces

/-! Trees read back. The written form of trees that were read is read again, if no attribute opens a
mustache in its literal text and no mustache in content is the mark of something else. -/

namespace LayoutMarkup

/-- Whether a leaf stays what it is when it is read back. -/
def Leaf.keepsKind : Leaf → Bool
  | .mustache call => !startsMark call.path.name.toList
  | _ => true

/-- Whether the attributes of a branch stay where they are. -/
def Head.keepsKind : Head → Bool
  | .element el => el.attributes.all fun attr => attr.value.opensNames
  | _ => true

def Leaf.reread : Leaf → Leaf
  | .text literal => .text (.made literal.chars)
  | .mustache call => .mustache call.reread
  | .comment remark => .comment remark.withoutSpan

def Head.reread : Head → Head
  | .program _ => .program .nowhere
  | .element el => .element el.reread
  | .block inner => .block inner.reread

namespace Tree

mutual

/-- What the written form of a tree is read as, spans apart. -/
def reread : Tree → Tree
  | .leaf content => .leaf content.reread
  | .branch head trees => .branch head.reread (rereadAll trees)

def rereadAll : List Tree → List Tree
  | [] => []
  | tree :: trees => tree.reread :: rereadAll trees

end

theorem front_braces (text : List Char) : Front.of ('{' :: '{' :: text) = .brace := by
  rw [Front.of_markup (startsMarkup_iff.mpr (.inl ⟨text, rfl⟩)), Markup.front_of_braces]

theorem front_text {text tail : List Char} (read : TextIsRead text (Front.of tail)) :
    Front.of (text ++ tail) = .text :=
  Front.of_text (by simp [read.filled]) (startsMarkup_of_textIsRead read)

theorem front_comment (comment : Comment) (tail : List Char) :
    Front.of (comment.write ++ tail) = Leaf.front (.comment comment) := by
  obtain ⟨value, html, span⟩ := comment
  cases html with
  | false => exact front_braces _
  | true =>
    have markup : startsMarkup (Comment.write ⟨value, true, span⟩ ++ tail) = true :=
      startsMarkup_iff.mpr (.inr (.inr (.inr ⟨_, rfl⟩)))
    rw [Front.of_markup markup]
    exact Markup.front_of_angle _

theorem front_element {element : Element} (legal : TagIsRead element.tag element.attributes)
    (trees : List Tree) (tail : List Char) :
    Front.of (write (.branch (.element element) trees) ++ tail) = .angle := by
  obtain ⟨c, letters, word, letter⟩ := legal.begins
  obtain ⟨rest, shape⟩ : ∃ rest,
      write (.branch (.element element) trees) ++ tail = '<' :: c :: rest := by
    simp only [write, Head.write, Element.writeStart, word]
    split <;> exact ⟨_, rfl⟩
  have markup : startsMarkup ('<' :: c :: rest) = true :=
    startsMarkup_iff.mpr (.inr (.inr (.inl ⟨c, rest, rfl, letter⟩)))
  rw [shape, Front.of_markup markup, Markup.front_of_angle]

/-- With what a written tree begins before other things. -/
theorem front_write {tree : Tree} {tail : List Char} (read : tree.IsRead (Front.of tail)) :
    Front.of (tree.write ++ tail) = tree.front := by
  match tree with
  | .leaf (.text literal) => exact front_text read
  | .leaf (.mustache call) => exact front_braces _
  | .leaf (.comment comment) => exact front_comment comment tail
  | .branch (.program span) trees => exact read.1.elim
  | .branch (.element element) trees => exact front_element read.1 trees tail
  | .branch (.block block) trees => exact front_braces _

theorem front_writeAll {trees : List Tree} {tail : List Char} (read : AllRead trees (Front.of tail)) :
    Front.of (writeAll trees ++ tail) = frontAll trees (Front.of tail) := by
  induction trees with
  | nil => rfl
  | cons tree trees ih =>
    have first := read.1
    rw [← ih read.2] at first
    rw [writeAll, List.append_assoc, front_write first]
    rfl

namespace Reading

mutual

theorem readsAsTree_write : ∀ (tree : Tree) (next : Front), tree.IsRead next →
    tree.each Leaf.keepsKind Head.keepsKind = true → ReadsAsTree tree.write tree.reread next
  | .leaf (.text _), _, read, _ => readsAsTree_text read
  | .leaf (.mustache call), next, read, keeps => by
    have legible := Call.meets_of_implies Demands.asRead_implies_legible call read
    exact readsAsTree_mustache next legible (by simpa [each, Leaf.keepsKind] using keeps)
  | .leaf (.comment _), next, read, _ => readsAsTree_comment next read
  | .branch (.program _) _, _, read, _ => read.1.elim
  | .branch (.element element) trees, next, ⟨legal, lone, below⟩, keeps => by
    simp only [each, Bool.and_eq_true] at keeps
    have values := fun attr member => AttributeValue.readsAs_reread (legal.attributes attr member).value
      (List.all_eq_true.mp keeps.1 attr member)
    by_cases whole : (element.selfClosing || isVoidTag element.tag) = true
    · obtain rfl := lone whole
      rw [write_lone whole]
      exact readsAsTree_lone next legal values whole
    · rw [Bool.not_eq_true] at whole
      rw [write_between trees whole]
      exact readsAsTree_element next legal values whole
        (readsAsTrees_writeAll trees .angle below keeps.2)
  | .branch (.block block) trees, next, ⟨met, _, below⟩, keeps => by
    simp only [each, Bool.and_eq_true] at keeps
    have legible := Call.meets_of_implies Demands.asRead_implies_legible block.call met
    exact readsAsTree_block next legible (readsAsTrees_writeAll trees .brace below keeps.2)

theorem readsAsTrees_writeAll : ∀ (trees : List Tree) (next : Front), AllRead trees next →
    eachAll Leaf.keepsKind Head.keepsKind trees = true →
      ReadsAsTrees (writeAll trees) (rereadAll trees) next
  | [], next, _, _ => readsAsTrees_nil next
  | tree :: trees, next, ⟨first, others⟩, keeps => by
    simp only [eachAll, Bool.and_eq_true] at keeps
    refine readsAsTrees_cons (readsAsTree_write tree _ first keeps.1)
      (readsAsTrees_writeAll trees next others keeps.2) ?_
    rintro tail rfl
    exact front_writeAll others

end

end Reading

/-- The written form of trees is read to its end. -/
theorem read_writeAll {trees : List Tree} (legal : AllRead trees .stop)
    (keeps : eachAll Leaf.keepsKind Head.keepsKind trees = true) :
    ∃ again cursor, Tree.read (String.ofList (writeAll trees)) = .ok (again, cursor) ∧
      withoutSpansAll again = rereadAll trees := by
  obtain ⟨again, cursor, ended, same, ran⟩ := Reading.readsAsTrees_writeAll trees .stop legal keeps
    .start (.ofString (String.ofList (writeAll trees))) [] (by simp [Cursor.ofString]) rfl
  refine ⟨again, cursor, ?_, same⟩
  rw [read, ran, Reading.run, dif_pos ended]
  simp [Reading.start]

end Tree

end LayoutMarkup
