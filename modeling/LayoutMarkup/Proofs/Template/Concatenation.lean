import LayoutMarkup.Proofs.Template.Blindness
import LayoutMarkup.Proofs.Template.Extension
import LayoutMarkup.Proofs.Template.Relocation

/-! Sources that are put together. Unless the first one ends with a text, the template of both has the
nodes of the first one and then those of the second one, under later ids and at later places; a fault in
the second one is found at a later place. -/

namespace LayoutMarkup

/-- A node whose children have ids that are later by an offset. -/
def Node.shift (offset : Nat) : Node → Node := mapChildren (List.map (· + offset))

namespace Node

variable (offset : Nat)

@[simp] theorem shift_leaf (content : Leaf) : (leaf content).shift offset = leaf content := rfl

@[simp] theorem shift_branch (head : Head) (ids : List NodeId) :
    (branch head ids).shift offset = branch head (ids.map (· + offset)) := rfl

theorem withoutSpans_shift (node : Node) :
    (node.shift offset).withoutSpans = node.withoutSpans.shift offset := by
  cases node <;> rfl

theorem shift_shift (more : Nat) (node : Node) :
    (node.shift offset).shift more = node.shift (offset + more) := by
  cases node with
  | leaf content => rfl
  | branch head ids => simp [Function.comp_def, Nat.add_assoc]

end Node

namespace Tree

theorem storeAll_append (nodes : Array Node) (first second : List Tree) :
    storeAll nodes (first ++ second) =
      ((storeAll (storeAll nodes first).1 second).1,
        (storeAll nodes first).2 ++ (storeAll (storeAll nodes first).1 second).2) := by
  induction first generalizing nodes with
  | nil => rfl
  | cons tree first ih => simp [storeAll, ih]

mutual

/-- Behind an older store a tree gets the nodes that it gets without it, under later ids. -/
theorem store_behind (older nodes : Array Node) :
    ∀ tree : Tree, store (older ++ nodes.map (Node.shift older.size)) tree =
      (older ++ (store nodes tree).1.map (Node.shift older.size),
        (store nodes tree).2 + older.size)
  | .leaf content => by
    simp [store, Nat.add_comm]
  | .branch head trees => by
    have below := storeAll_behind older nodes trees
    simp [store, below, Nat.add_comm]

theorem storeAll_behind (older nodes : Array Node) :
    ∀ trees : List Tree, storeAll (older ++ nodes.map (Node.shift older.size)) trees =
      (older ++ (storeAll nodes trees).1.map (Node.shift older.size),
        (storeAll nodes trees).2.map (· + older.size))
  | [] => rfl
  | tree :: trees => by
    have first := store_behind older nodes tree
    have others := storeAll_behind older (store nodes tree).1 trees
    simp [storeAll, first, others]

end

/-- What a store adds behind its nodes does not depend on them. -/
theorem storeAll_eq (nodes : Array Node) (trees : List Tree) :
    storeAll nodes trees = (nodes ++ (storeAll #[] trees).1.map (Node.shift nodes.size),
      (storeAll #[] trees).2.map (· + nodes.size)) := by
  simpa using storeAll_behind nodes #[] trees

theorem exists_shownAt_of_getLast? {lookup : NodeId → Option Node} {tree : Tree} :
    ∀ {trees : List Tree} {ids : List NodeId}, ShownAll lookup trees ids → trees.getLast? = some tree →
      ∃ id, ids.getLast? = some id ∧ tree.ShownAt lookup id
  | [only], _, shown, last => by
    obtain ⟨first, others, rfl, head, rfl⟩ := shown
    cases last
    exact ⟨first, rfl, head⟩
  | _ :: second :: trees, _, shown, last => by
    obtain ⟨first, others, rfl, -, tail⟩ := shown
    obtain ⟨id, final, shown⟩ := exists_shownAt_of_getLast? tail last
    refine ⟨id, ?_, shown⟩
    obtain ⟨_, _, rfl, -⟩ := tail
    exact final

end Tree

namespace Template

/-- Whether the last child of the root is a text. -/
def endsWithText (template : Template) : Bool :=
  match (template.children root).getLast? >>= template.get? with
  | some (.leaf (.text _)) => true
  | _ => false

theorem endsWithText_ofTrees {trees : List Tree} {literal : Text} (span : Span)
    (last : trees.getLast? = some (.leaf (.text literal))) :
    (ofTrees trees span).endsWithText = true := by
  obtain ⟨id, final, shown⟩ := Tree.exists_shownAt_of_getLast? (shownAll_ofTrees trees span) last
  have found : (ofTrees trees span).get? id = some (.leaf (.text literal)) := shown
  have listed := children_of_get? (get?_root_ofTrees trees span)
  simp [endsWithText, listed, Node.children, final, found]

/-- Below the root the nodes of a template made of trees are those that were stored. -/
theorem get?_ofTrees (trees : List Tree) (span : Span) {id : Nat} (below : id ≠ root) :
    (ofTrees trees span).get? id = (Tree.storeAll #[] trees).1[id - 1]?.map (Node.shift 1) := by
  have stored : (ofTrees trees span).get? id = (Tree.storeAll (empty span).nodes trees).1[id]? := by
    simp [ofTrees, get?, set, Ne.symm below]
  have later : (empty span).nodes.size ≤ id := Nat.one_le_iff_ne_zero.mpr below
  rw [stored, Tree.storeAll_eq, Array.getElem?_append_right later, Array.getElem?_map]
  rfl

/-- What the template of two sources has to do with the templates of the first and of the second one:
its body is the body of the first one, as it is, and then the body of the second one, under later ids. -/
structure IsConcatenation (first second whole : Template) : Prop where
  size : whole.size + 1 = first.size + second.size
  body : whole.children root =
    first.children root ++ (second.children root).map (· + (first.size - 1))
  top : ∃ span, whole.get? root = some (.branch (.program span) (whole.children root))
  kept : ∀ id, id ≠ root → id < first.size → whole.get? id = first.get? id
  added : ∀ id, id ≠ root → whole.withoutSpans.get? (id + (first.size - 1)) =
    (second.withoutSpans.get? id).map (Node.shift (first.size - 1))

section

variable (first second : List Tree) (span one two : Span)

theorem offset_ofTrees : (ofTrees first one).size - 1 = (Tree.storeAll #[] first).1.size := by
  simp [size_ofTrees, Tree.size_storeAll]

theorem children_root_ofTrees : (ofTrees first one).children root =
    (Tree.storeAll #[] first).2.map (· + 1) := by
  rw [children_of_get? (get?_root_ofTrees first one), Tree.storeAll_eq]
  rfl

theorem children_root_ofTrees_append : (ofTrees (first ++ second) span).children root =
    (ofTrees first one).children root ++
      ((ofTrees second two).children root).map (· + ((ofTrees first one).size - 1)) := by
  simp only [children_root_ofTrees, offset_ofTrees, Tree.storeAll_append,
    Tree.storeAll_eq (Tree.storeAll #[] first).1 second, List.map_append, List.map_map]
  simp [Function.comp_def, Nat.add_right_comm]

theorem get?_ofTrees_append_left {id : Nat} (below : id ≠ root) (bound : id < (ofTrees first one).size) :
    (ofTrees (first ++ second) span).get? id = (ofTrees first one).get? id := by
  have inside : id - 1 < (Tree.storeAll #[] first).1.size := by
    have positive : 0 < id := Nat.pos_of_ne_zero below
    rw [← offset_ofTrees first one]
    omega
  rw [get?_ofTrees _ _ below, get?_ofTrees _ _ below, Tree.storeAll_append,
    Tree.storeAll_kept _ second _ inside]

theorem get?_ofTrees_append_right {id : Nat} (below : id ≠ root) :
    (ofTrees (first ++ second) span).get? (id + ((ofTrees first one).size - 1)) =
      ((ofTrees second two).get? id).map (Node.shift ((ofTrees first one).size - 1)) := by
  have positive : 0 < id := Nat.pos_of_ne_zero below
  rw [offset_ofTrees first one]
  generalize place : (Tree.storeAll #[] first).1.size = offset
  have later : id + offset - 1 = offset + (id - 1) := by omega
  have inner : id + offset ≠ root := Nat.ne_of_gt (Nat.add_pos_left positive offset)
  rw [get?_ofTrees _ _ below, get?_ofTrees _ _ inner, Tree.storeAll_append, Tree.storeAll_eq _ second,
    place, later, ← place, Array.getElem?_append_right (Nat.le_add_right _ _), Nat.add_sub_cancel_left,
    Array.getElem?_map, Option.map_map, Option.map_map]
  simp only [Function.comp_def, Node.shift_shift, Nat.add_comm]

/-- Trees behind others make a concatenation, whatever their spans are. -/
theorem isConcatenation_ofTrees {moved : List Tree}
    (same : Tree.withoutSpansAll moved = Tree.withoutSpansAll second) :
    IsConcatenation (ofTrees first one) (ofTrees second two) (ofTrees (first ++ moved) span) := by
  have alike : (ofTrees moved two).withoutSpans = (ofTrees second two).withoutSpans := by
    rw [withoutSpans_ofTrees, withoutSpans_ofTrees, same]
  have counted : (ofTrees moved two).size = (ofTrees second two).size := by
    rw [← size_withoutSpans, alike, size_withoutSpans]
  have listed : (ofTrees moved two).children root = (ofTrees second two).children root := by
    rw [← children_withoutSpans, alike, children_withoutSpans]
  exact {
    size := by
      rw [← counted, size_ofTrees, size_ofTrees, size_ofTrees, Tree.countAll_append]
      omega
    body := listed ▸ children_root_ofTrees_append first moved span one two
    top := ⟨span, children_of_get? (get?_root_ofTrees _ span) ▸ get?_root_ofTrees _ span⟩
    kept := fun id below bound => get?_ofTrees_append_left first moved span one below bound
    added := by
      intro id below
      have later := get?_ofTrees_append_right first moved span one two below
      simp only [← alike, get?_withoutSpans, later, Option.map_map, Function.comp_def,
        Node.withoutSpans_shift] }

end

end Template

/-- Behind a source without a text at its end the trees of the rest are read as though it stood alone. -/
theorem Tree.read_together {source : String} {trees : List Tree} {last : Cursor}
    (found : Tree.read source = .ok (trees, last))
    (solid : ∀ literal, trees.getLast? ≠ some (.leaf (.text literal))) (more : String) :
    Tree.read (source ++ more) =
      relocateResult last.position.behind
        (Prod.map (trees ++ relocateAll last.position.behind ·) (Cursor.relocate last.position.behind))
        (Tree.read more) := by
  have longer : Cursor.ofString (source ++ more) = (Cursor.ofString source).extend more.toList := by
    simp [Cursor.ofString, Cursor.extend]
  have moved : (Cursor.ofString more).relocate last.position.behind = ⟨more.toList, last.position⟩ :=
    congrArg (Cursor.mk more.toList) last.position.behind_start
  have begun : Position.start.UpTo (Cursor.ofString more).position := Position.upTo_refl .start
  have onward := Reading.run_relocate (Position.carries_behind last.position) trees.reverse .start begun
  rw [moved, List.reverse_reverse] at onward
  rw [Tree.read, longer, Reading.run_extend found solid more.toList]
  -- the reading that starts behind the trees has them as its siblings
  exact onward

namespace Template

/-- Behind a source that does not end with a text the rest is read as though it stood alone: it is
readable or not, its nodes come behind the nodes that the source has anyway, and its first fault is found
where the source has led. -/
theorem read_append {source : String} {first : Template} (found : read source = .ok first)
    (solid : first.endsWithText = false) (more : String) :
    ((∃ whole, read (source ++ more) = .ok whole) ↔ ∃ second, read more = .ok second) ∧
    (∀ second whole, read more = .ok second → read (source ++ more) = .ok whole →
      first.IsConcatenation second whole) ∧
    ∀ fault, read more = .error fault → read (source ++ more) =
      .error ⟨fault.cause, (Position.start.after source.toList).behind fault.position⟩ := by
  obtain ⟨trees, last, finished, rfl⟩ := exists_trees_of_read found
  have ends : ∀ literal, trees.getLast? ≠ some (.leaf (.text literal)) := by
    intro literal final
    rw [endsWithText_ofTrees _ final] at solid
    cases solid
  have together := Tree.read_together finished ends more
  rw [← (Tree.coversAll_of_read finished).2]
  unfold read
  rw [together]
  cases Tree.read more with
  | error fault => simp [relocateResult, Fault.relocate]
  | ok rest =>
    obtain ⟨others, after⟩ := rest
    have alike := Tree.withoutSpansAll_relocateAll last.position.behind others
    refine ⟨by simp [relocateResult], ?_, by simp⟩
    rintro second whole ⟨⟩ ⟨⟩
    exact isConcatenation_ofTrees trees others _ _ _ alike

/-- Behind a paragraph a text and a mustache get later ids, and a closing tag is still one too many. -/
theorem read_append_of_paragraph :
    ∃ first second whole, read "<p>a</p>" = .ok first ∧ first.endsWithText = false ∧
      read "b\x7b\x7bc\x7d\x7d" = .ok second ∧ read ("<p>a</p>" ++ "b\x7b\x7bc\x7d\x7d") = .ok whole ∧
      first.IsConcatenation second whole ∧ whole.children root = [2, 3, 4] ∧
      read ("<p>a</p>" ++ "b</p>") = .error ⟨.unexpectedClosingTag, ⟨1, 9⟩⟩ := by
  have closed : (read "<p>a</p>").toOption.any (fun first => !first.endsWithText) = true := by
    decide +kernel
  have rest : (read "b\x7b\x7bc\x7d\x7d").toOption.any (fun second => second.size = 3) = true := by
    decide +kernel
  have both : (read ("<p>a</p>" ++ "b\x7b\x7bc\x7d\x7d")).toOption.any
      (fun whole => whole.children root = [2, 3, 4]) = true := by
    decide +kernel
  have fault : (match read "b</p>" with
      | .ok _ => false
      | .error fault => fault = ⟨.unexpectedClosingTag, ⟨1, 1⟩⟩) = true := by
    decide +kernel
  have broken : read "b</p>" = .error ⟨.unexpectedClosingTag, ⟨1, 1⟩⟩ := by
    split at fault
    · cases fault
    · rename_i found refused
      rw [refused, of_decide_eq_true fault]
  obtain ⟨first, found, solid⟩ := exists_of_any closed
  obtain ⟨second, found', -⟩ := exists_of_any rest
  obtain ⟨whole, joined, listed⟩ := exists_of_any both
  have solid' : first.endsWithText = false := by simpa using solid
  obtain ⟨-, joins, -⟩ := read_append found solid' "b\x7b\x7bc\x7d\x7d"
  obtain ⟨-, -, fails⟩ := read_append found solid' "b</p>"
  exact ⟨first, second, whole, found, solid', found', joined, joins second whole found' joined,
    by simpa using listed, fails _ broken⟩

end Template

end LayoutMarkup
