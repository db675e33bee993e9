import LayoutMarkup.Proofs.Call.Contents
import LayoutMarkup.Proofs.Template.Balance
import LayoutMarkup.Proofs.Template.Mustaches

/-! Nodes read back. Of a template whose written form can be read, every node comes back at its id, and
with it the strings in its mustaches one by one. -/

namespace LayoutMarkup

/-- The strings in the mustaches at a node. -/
def Node.strings (node : Node) : List String := node.calls.flatMap Call.strings

/-- What the written form of a node is read as, spans apart. -/
def Node.reread : Node → Node := Node.mapContents Leaf.reread Head.reread

theorem AttributeValue.calls_valueOfParts (parts : List Part) (span : Span) :
    (Cursor.valueOfParts parts span).calls = parts.filterMap Part.call? := by
  match parts with
  | [] => rfl
  | [.text literal] => rfl
  | [.mustache call] => rfl
  | .text literal :: second :: rest => rfl
  | .mustache call :: second :: rest => rfl

theorem calls_partsWithoutSpans (parts : List Part) :
    (partsWithoutSpans parts).filterMap Part.call? =
      (parts.filterMap Part.call?).map Call.withoutSpans := by
  induction parts with
  | nil => rfl
  | cons part rest ih => cases part <;> simp [partsWithoutSpans, List.filterMap_cons, Part.call?, ih]

theorem calls_rereadParts (parts : List Part) :
    (rereadParts parts).filterMap Part.call? = (parts.filterMap Part.call?).map Call.reread := by
  induction parts with
  | nil => rfl
  | cons part rest ih => cases part <;> simp [rereadParts, List.filterMap_cons, Part.call?, ih]

theorem Part.calls_ofStretch (stretch : List Char) (span : Span) :
    (ofStretch stretch span).filterMap Part.call? = [] := by
  unfold ofStretch
  split <;> rfl

/-- The mustaches that a text opens are names, without strings. -/
theorem strings_nameParts (text : List Char) :
    ((nameParts text).filterMap Part.call?).flatMap Call.strings = [] := by
  induction text using nameParts.induct with
  | case1 text literal rest behind word ih =>
    rw [nameParts]
    split
    · rename_i rest' same
      obtain rfl : rest = rest' := by simpa using behind.symm.trans same
      simp only [List.filterMap_append, Part.calls_ofStretch, List.filterMap_cons, Part.call?,
        List.nil_append, List.flatMap_cons]
      exact ih
    · rename_i other
      exact absurd behind (other rest)
  | case2 text literal other =>
    rw [nameParts]
    split
    · rename_i rest' same
      exact absurd same (other rest')
    · rw [Part.calls_ofStretch]
      rfl

namespace AttributeValue

theorem strings_withoutSpans (value : AttributeValue) :
    value.withoutSpans.calls.flatMap Call.strings = value.calls.flatMap Call.strings := by
  cases value with
  | text literal => rfl
  | mustache call => simp [withoutSpans, calls, call.strings_withoutSpans]
  | concat parts span =>
    simp only [withoutSpans, calls, calls_partsWithoutSpans, List.flatMap_map,
      Call.strings_withoutSpans]

theorem strings_reread (value : AttributeValue) :
    value.reread.calls.flatMap Call.strings =
      (value.calls.flatMap Call.strings).map Quoted.rereadText := by
  cases value with
  | text literal =>
    rw [reread, calls_valueOfParts, strings_nameParts]
    rfl
  | mustache call => simp [reread, calls, call.strings_reread]
  | concat parts span =>
    simp only [reread, calls, calls_rereadParts, List.flatMap_map, Call.strings_reread,
      List.map_flatMap]

end AttributeValue

namespace Node

theorem strings_withoutSpans (node : Node) : node.withoutSpans.strings = node.strings := by
  cases node with
  | leaf content =>
    cases content with
    | mustache call => simp [withoutSpans, Leaf.withoutSpans, strings, calls, call.strings_withoutSpans]
    | _ => rfl
  | branch head children =>
    cases head with
    | program span => rfl
    | element element =>
      simp only [withoutSpans, Head.withoutSpans, Element.withoutSpans, strings, calls,
        List.flatMap_assoc, List.flatMap_map, Attribute.withoutSpans,
        AttributeValue.strings_withoutSpans]
    | block block =>
      have same : block.withoutSpans.call = block.call.withoutSpans := rfl
      simp [withoutSpans, Head.withoutSpans, strings, calls, same, Call.strings_withoutSpans]

/-- The strings at a node come back one by one. -/
theorem strings_reread (node : Node) : node.reread.strings = node.strings.map Quoted.rereadText := by
  cases node with
  | leaf content =>
    cases content with
    | mustache call => simp [reread, mapContents, Leaf.reread, strings, calls, call.strings_reread]
    | _ => rfl
  | branch head children =>
    cases head with
    | program span => rfl
    | element element =>
      simp only [reread, mapContents, Head.reread, Element.reread, strings, calls,
        List.flatMap_assoc, List.flatMap_map, Attribute.reread, AttributeValue.strings_reread,
        List.map_flatMap]
    | block block =>
      have same : block.reread.call = block.call.reread := rfl
      simp [reread, mapContents, Head.reread, strings, calls, same, Call.strings_reread]

end Node

/-! ### Templates read back -/

namespace Tree

mutual

theorem reread_eq_mapContents : ∀ tree : Tree, tree.reread = tree.mapContents Leaf.reread Head.reread
  | .leaf _ => rfl
  | .branch _ trees => by rw [reread, mapContents, rereadAll_eq_mapContentsAll trees]

theorem rereadAll_eq_mapContentsAll : ∀ trees : List Tree,
    rereadAll trees = mapContentsAll Leaf.reread Head.reread trees
  | [] => rfl
  | tree :: trees => by
    rw [rereadAll, mapContentsAll, reread_eq_mapContents tree, rereadAll_eq_mapContentsAll trees]

end

end Tree

namespace Template

variable {trees : List Tree} {span : Span} {text : String} {again : Template}

/-- If trees come back, every node of a template made of them comes back at its id. -/
theorem get?_of_rereadAll {trees' : List Tree} {span' : Span}
    (same : Tree.withoutSpansAll trees' = Tree.rereadAll trees) (id : NodeId) :
    ((ofTrees trees' span').get? id).map Node.withoutSpans =
      ((ofTrees trees span).get? id).map Node.reread := by
  have program : (Head.program span).reread = .program .nowhere := rfl
  have spans := withoutSpans_ofTrees trees' span'
  rw [same, Tree.rereadAll_eq_mapContentsAll] at spans
  have nodes := congrArg Template.nodes spans
  rw [nodes_ofTrees_mapContents trees program] at nodes
  rw [get?, get?, ← Array.getElem?_map, Node.reread, ← Array.getElem?_map, ← nodes]
  rfl

/-- If the written form of legible trees can be read, every node comes back; literal text in attributes
may open no more than names. -/
theorem get?_of_read_print (legible : Tree.AllLegible trees .stop)
    (names : Tree.eachAll (fun _ => true) Head.keepsKind trees = true)
    (printed : (ofTrees trees span).print = some text) (found : read text = .ok again) (id : NodeId) :
    (again.get? id).map Node.withoutSpans = ((ofTrees trees span).get? id).map Node.reread := by
  have clear := (read_print_ofTrees_iff legible printed).mp ⟨again, found⟩
  obtain ⟨trees', last, finished, -, same⟩ := Tree.read_of_allClear legible clear
  rw [print_ofTrees] at printed
  cases printed
  rw [read, finished] at found
  cases found
  exact get?_of_rereadAll (same names) id

/-- Whether literal text in attributes opens no more than names, and no mustache in content is the mark
of something else. -/
def keepsKinds (template : Template) : Bool :=
  template.nodes.all (Node.each Leaf.keepsKind Head.keepsKind)

/-- Such a template that was read can be read as it is printed, and every node comes back. -/
theorem get?_of_keepsKinds {source : String} {template : Template}
    (found : read source = .ok template) (keeps : template.keepsKinds = true) :
    ∃ text again, template.print = some text ∧ read text = .ok again ∧
      ∀ id, (again.get? id).map Node.withoutSpans = (template.get? id).map Node.reread := by
  obtain ⟨trees, cursor, finished, rfl⟩ := exists_trees_of_read found
  rw [keepsKinds, all_each_ofTrees, Bool.and_eq_true] at keeps
  obtain ⟨trees', last, reread, same⟩ :=
    Tree.read_writeAll (Tree.allRead_of_read finished) keeps.2
  refine ⟨_, ofTrees trees' ⟨.start, last.position⟩, print_ofTrees _ _, ?_,
    get?_of_rereadAll same⟩
  rw [read, reread]

/-- Where a node comes back, so do its strings, one by one. -/
theorem strings_of_get? {template : Template} {id : NodeId}
    (same : (again.get? id).map Node.withoutSpans = (template.get? id).map Node.reread) :
    (again.get? id).map Node.strings =
      (template.get? id).map fun node => node.strings.map Quoted.rereadText := by
  have strings := congrArg (Option.map Node.strings) same
  simpa only [Option.map_map, Function.comp_def, Node.strings_withoutSpans, Node.strings_reread]
    using strings

end Template

end LayoutMarkup
