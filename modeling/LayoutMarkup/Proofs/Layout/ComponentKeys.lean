import LayoutMarkup.Proofs.Layout.Arguments
import LayoutMarkup.Proofs.Layout.ReadBack

/-! Names of attributes as keys. Attributes may have names that are no keys, and a component gets them as
they are. Its opening is read back with the same keys exactly if every name is a key. -/

namespace LayoutMarkup

open Lexeme

namespace Cursor

/-- Behind a blank, a word and an equals sign are read as one key exactly if the word is a key. -/
theorem readLexeme_key_iff {cursor : Cursor} {name : String} {tail : List Char}
    (shape : cursor.rest = ' ' :: (name.toList ++ '=' :: tail)) :
    (∃ span after, cursor.readLexeme = (.ok ⟨.key name, span⟩, after) ∧ after.rest = tail) ↔
      IsKey name.toList := by
  constructor
  · rintro ⟨span, after, found, -⟩
    exact (Call.Reading.wellformed_of_readLexeme found).key name rfl
  · intro key
    have found := read_key key tail
    rw [String.ofList_toList] at found
    have front : cursor.rest = [' '] ++ ((name.toList ++ ['=']) ++ tail) := by simp [shape]
    exact readLexeme_of_read front (by decide) (by simpa using found)

end Cursor

/-- Where the opening of a block is written, the reading of a template enters a block. -/
theorem Tree.Reading.step_writeStart (reading : Reading) {cursor : Cursor} {block : Block}
    {tail : List Char} (shape : cursor.rest = block.writeStart ++ tail) :
    reading.step cursor = reading.openBlock cursor 3 := by
  obtain ⟨rest, whole⟩ : ∃ rest, cursor.rest = '{' :: '{' :: '#' :: rest := by
    rw [shape, Block.writeStart]
    exact ⟨_, rfl⟩
  have markup : startsMarkup cursor.rest = true := startsMarkup_iff.mpr (.inl ⟨_, whole⟩)
  have first : Markup.first cursor.rest = .blockOpen 3 := by
    rw [whole]
    rfl
  simp only [step, markup, if_true, readMarkup, first]

namespace Element

variable {element : Element}

theorem keys_toBlock (element : Element) :
    element.toBlock.call.keys = element.attributes.map Attribute.name := by
  cases made : element.toBlock.hash with
  | none =>
    rw [hash_toBlock_eq_none_iff] at made
    simp [toBlock, Block.call, Call.keys, made]
  | some hash =>
    have pairs := pairs_toBlock made
    simp only [Call.keys, Block.call, made, pairs, List.map_map]
    rfl

/-- What comes back of the opening of a component as it is printed. -/
structure KeysComeBack (element : Element) : Prop where
  /-- What is printed of a name is read as one key exactly if the name is a key. -/
  key : ∀ attr ∈ element.attributes, ∀ (cursor : Cursor) (tail : List Char),
    cursor.rest = ' ' :: (attr.name.toList ++ '=' :: tail) →
    ((∃ span after, cursor.readLexeme = (.ok ⟨.key attr.name, span⟩, after) ∧ after.rest = tail) ↔
      IsKey attr.name.toList)
  /-- If every name is a key, wherever a template is read the opening is that of a block with the same
  path, no positional arguments, and the names as keys, each in its place. -/
  survives : (∀ attr ∈ element.attributes, IsKey attr.name.toList) →
    ∀ (reading : Tree.Reading) (cursor : Cursor) (tail : List Char),
      cursor.rest = element.toBlock.writeStart ++ tail →
      ∃ call after, reading.step cursor =
          .ok (reading.enter (.block call cursor.position after.position), after) ∧
        after.rest = tail ∧ call.path.name = element.toBlock.path.name ∧ call.params = [] ∧
        call.keys = element.attributes.map Attribute.name
  /-- Else no block is read there whose keys are the names. -/
  needed : ∀ (reading : Tree.Reading) (cursor : Cursor) (tail : List Char),
    cursor.rest = element.toBlock.writeStart ++ tail →
    ∀ call after, reading.step cursor =
        .ok (reading.enter (.block call cursor.position after.position), after) →
      call.keys = element.attributes.map Attribute.name →
        ∀ attr ∈ element.attributes, IsKey attr.name.toList

theorem keysComeBack (component : element.isComponent = true)
    (read : ∀ attr ∈ element.attributes, attr.IsRead) : element.KeysComeBack where
  key _ _ _ _ shape := Cursor.readLexeme_key_iff shape
  survives named reading cursor tail shape := by
    obtain ⟨-, -, call, after, found, rest, same⟩ :=
      Tree.Reading.blockStart_written (element.meets_toBlock component read named) shape
    refine ⟨call, after, ?_, rest, ?_, Call.params_of_reread same rfl, ?_⟩
    · rw [reading.step_writeStart shape, Tree.Reading.openBlock, found]
    · exact Call.name_of_reread same
    · rw [← call.keys_withoutSpans, same, Call.keys_reread, keys_toBlock]
  needed reading cursor tail shape call after step keys attr member := by
    rw [reading.step_writeStart shape, Tree.Reading.openBlock] at step
    split at step
    · cases step
    · rename_i read behind found
      simp only [Except.ok.injEq, Prod.mk.injEq, Tree.Reading.enter, Tree.Reading.mk.injEq,
        List.cons.injEq, OpenBranch.mk.injEq, Opening.block.injEq] at step
      obtain ⟨⟨⟨⟨⟨rfl, -⟩, -⟩, -⟩, -⟩, -⟩ := step
      apply Call.isKey_of_mem_keys (Cursor.meets_of_readCall found)
      rw [keys]
      exact List.mem_map_of_mem member

end Element

/-- A node that comes back as a block was printed as one. -/
theorem Node.block_of_reread {node : Node} {block : Block} {children : List NodeId}
    (same : node.withoutSpans = reread (.branch (.block block) children)) :
    ∃ again, node = .branch (.block again) children ∧ again.call.withoutSpans = block.call.reread := by
  match node with
  | .branch (.block again) ids =>
    simp only [withoutSpans, reread, mapContents, Head.withoutSpans, Head.reread, branch.injEq,
      Head.block.injEq] at same
    obtain ⟨content, rfl⟩ := same
    exact ⟨again, rfl, congrArg Block.call content⟩

namespace Template

/-- The opening of a component that an element of a source becomes is read back with the names of the
attributes as its keys exactly if all of these are keys. If what assembly leaves is taken for what it is,
all that is printed can be read, and the component comes back at the id of the element with these keys. -/
theorem keys_come_back {source : String} {template : Template} {id : NodeId} {element : Element}
    (found : read source = .ok template) (present : template.element? id = some element)
    (component : element.isComponent = true) :
    element.KeysComeBack ∧
    (template.IsAssemblable → ∃ rewritten text again block children,
      Pass.component.run template = (rewritten, none) ∧ rewritten.print = some text ∧
      read text = .ok again ∧ again.get? id = some (.branch (.block block) children) ∧
      block.call.keys = element.attributes.map Attribute.name) := by
  refine ⟨element.keysComeBack component (tagIsRead_of_read found present).attributes, fun able => ?_⟩
  obtain ⟨rewritten, text, again, done, printed, reread, made, back⟩ :=
    get?_of_reread_component found able
  obtain ⟨children, here⟩ := element?_eq_some_iff.mp present
  have became : rewritten.get? id = some (.branch (.block element.toBlock) children) := by
    rw [made, here, Option.map_some, Node.assembled, if_pos component]
  have came := back id
  rw [became, Option.map_some, Option.map_eq_some_iff] at came
  obtain ⟨node, there, same⟩ := came
  obtain ⟨block, rfl, kept⟩ := Node.block_of_reread same
  refine ⟨rewritten, text, again, block, children, done, printed, reread, there, ?_⟩
  rw [← block.call.keys_withoutSpans, kept, Call.keys_reread, element.keys_toBlock]

/-- A name with dots comes back, but one that begins with a digit does not. -/
theorem keys_come_back_of_digit :
    (∃ template rewritten text again block children,
      read "<container b.c='x'></container>" = .ok template ∧
      Pass.component.run template = (rewritten, none) ∧ rewritten.print = some text ∧
      read text = .ok again ∧ again.get? 1 = some (.branch (.block block) children) ∧
      block.call.keys = ["b.c"]) ∧
    ∃ template element, read "<container 1a='x' b='y'></container>" = .ok template ∧
      template.element? 1 = some element ∧ element.attributes.map Attribute.name = ["1a", "b"] ∧
      ∀ (reading : Tree.Reading) (cursor : Cursor) (tail : List Char),
        cursor.rest = element.toBlock.writeStart ++ tail → ∀ call after, reading.step cursor =
          .ok (reading.enter (.block call cursor.position after.position), after) →
          call.keys ≠ ["1a", "b"] := by
  constructor
  · have facts : (read "<container b.c='x'></container>").toOption.any (fun template =>
        template.canAssemble && (template.element? 1).any fun element =>
          element.isComponent && element.attributes.map Attribute.name = ["b.c"]) = true := by
      decide +kernel
    obtain ⟨template, found, checked⟩ := exists_of_any facts
    simp only [Option.any_eq_true, Bool.and_eq_true, decide_eq_true_eq] at checked
    obtain ⟨able, element, present, component, names⟩ := checked
    obtain ⟨rewritten, text, again, block, children, done, printed, reread, there, keys⟩ :=
      (keys_come_back found present component).2 (isAssemblable_of_canAssemble able)
    exact ⟨template, rewritten, text, again, block, children, found, done, printed, reread, there,
      keys.trans names⟩
  · have facts : (read "<container 1a='x' b='y'></container>").toOption.any (fun template =>
        (template.element? 1).any fun element =>
          element.isComponent && element.attributes.map Attribute.name = ["1a", "b"]) = true := by
      decide +kernel
    obtain ⟨template, found, checked⟩ := exists_of_any facts
    simp only [Option.any_eq_true, Bool.and_eq_true, decide_eq_true_eq] at checked
    obtain ⟨element, present, component, names⟩ := checked
    refine ⟨template, element, found, present, names, ?_⟩
    intro reading cursor tail shape call after step same
    have keys := (keys_come_back found present component).1.needed reading cursor tail shape
      call after step (same.trans names.symm)
    have first : "1a" ∈ element.attributes.map Attribute.name := by simp [names]
    obtain ⟨attr, member, named⟩ := List.mem_map.mp first
    have key := keys attr member
    rw [named] at key
    exact absurd key (by decide)

end Template

end LayoutMarkup
