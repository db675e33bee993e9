import LayoutMarkup.Proofs.Template.Canonical
import LayoutMarkup.Proofs.Template.Steps

/-! Whatever is read has the form of what was read. The trees before the place that a reading has
reached have this form before what comes next, and so have those before each open branch. -/

namespace LayoutMarkup

/-- With what an open branch begins, and with what it will have to be closed. -/
def Opening.front : Opening → Front
  | .element .. => .angle
  | .block .. => .brace

/-- What holds of an open branch that was read. -/
def Opening.IsRead : Opening → Prop
  | .element tag attributes _ => TagIsRead tag attributes ∧ isVoidTag tag = false
  | .block call _ _ => call.meets .asRead = true

theorem startsTag_of_first {text : List Char} (markup : startsMarkup text = true)
    (first : Markup.first text = .startTag) :
    ∃ c rest, text = '<' :: c :: rest ∧ Unicode.isAlphabetic c = true := by
  rcases startsMarkup_iff.mp markup with ⟨rest, rfl⟩ | ⟨rest, rfl⟩ | tag | ⟨rest, rfl⟩
  · have brace := Markup.front_of_braces rest
    rw [first] at brace
    cases brace
  · simp [Markup.first, List.isPrefixOf] at first
  · exact tag
  · simp [Markup.first, List.isPrefixOf] at first

theorem isTagChar_of_isAlphabetic {c : Char} (letter : Unicode.isAlphabetic c = true) :
    isTagChar c = true := by
  simp [isTagChar, Unicode.isAlphanumeric, letter]

namespace Tree.Reading

/-- What holds of a reading that has reached a place with something behind it. -/
structure IsRead (reading : Reading) (rest : List Char) : Prop where
  siblings : AllRead reading.siblings.reverse (Front.of rest)
  openings : ∀ branch ∈ reading.branches, branch.opening.IsRead
  before : ∀ branch ∈ reading.branches, AllRead branch.before.reverse branch.opening.front

variable {reading reading' : Reading} {cursor after : Cursor}

theorem isRead_start (rest : List Char) : start.IsRead rest :=
  ⟨trivial, by simp [start], by simp [start]⟩

theorem isRead_push {tree : Tree} {rest : List Char} (read : reading.IsRead cursor.rest)
    (begins : Front.of cursor.rest = tree.front) (new : tree.IsRead (Front.of rest)) :
    (reading.push tree).IsRead rest := by
  refine ⟨?_, read.openings, read.before⟩
  rw [push, List.reverse_cons, allRead_concat, ← begins]
  exact ⟨read.siblings, new⟩

theorem isRead_enter {opening : Opening} (rest : List Char) (read : reading.IsRead cursor.rest)
    (begins : Front.of cursor.rest = opening.front) (new : opening.IsRead) :
    (reading.enter opening).IsRead rest := by
  refine ⟨trivial, ?_, ?_⟩
  · intro branch member
    rcases List.mem_cons.mp member with rfl | older
    · exact new
    · exact read.openings branch older
  · intro branch member
    rcases List.mem_cons.mp member with rfl | older
    · rw [← begins]
      exact read.siblings
    · exact read.before branch older

/-- Closing a branch whose head begins as its opening does and which may have children. -/
theorem isRead_close {opening : Opening} {before : List Tree} {outer : List OpenBranch}
    {head : Head} (rest : List Char) (read : reading.IsRead cursor.rest)
    (inside : reading.branches = ⟨opening, before⟩ :: outer)
    (ends : Front.of cursor.rest = head.front) (same : head.front = opening.front)
    (legal : head.IsRead) (open' : head.isLone = false) :
    IsRead ⟨outer, .branch head reading.siblings.reverse :: before⟩ rest := by
  have own := read.before ⟨opening, before⟩ (inside ▸ List.mem_cons_self)
  refine ⟨?_, ?_, ?_⟩
  · rw [List.reverse_cons, allRead_concat]
    refine ⟨?_, legal, by simp [open'], ?_⟩
    · rw [Tree.front, same]
      exact own
    · rw [← ends]
      exact read.siblings
  · exact fun branch member => read.openings branch (inside ▸ List.mem_cons_of_mem _ member)
  · exact fun branch member => read.before branch (inside ▸ List.mem_cons_of_mem _ member)

theorem tagIsRead_of_readAttributes {tag : String} {attributes : List Attribute} {closing : Bool}
    (markup : startsMarkup cursor.rest = true) (first : Markup.first cursor.rest = .startTag)
    (name : tag = String.ofList (tagBehind cursor 1))
    (found : (behindTag cursor 1).readAttributes tag = .ok (attributes, closing, after)) :
    TagIsRead tag attributes := by
  obtain ⟨c, rest, shape, letter⟩ := startsTag_of_first markup first
  have text : tag.toList = (c :: rest).takeWhile isTagChar := by
    rw [name, String.toList_ofList, tagBehind, Cursor.run, Cursor.skip, shape]
    rfl
  refine ⟨⟨c, rest.takeWhile isTagChar, ?_, letter⟩, ?_, Cursor.isRead_of_readAttributes found⟩
  · rw [text, List.takeWhile_cons_of_pos (isTagChar_of_isAlphabetic letter)]
  · intro d member
    exact List.mem_takeWhile_imp (text ▸ member)

/-- One more piece of the source leaves a reading with the form of what was read. -/
theorem isRead_of_moves (read : reading.IsRead cursor.rest) (filled : cursor.rest ≠ [])
    (moves : Moves reading cursor reading' after) : reading'.IsRead after.rest := by
  have begins := @Front.of_markup cursor.rest
  cases moves with
  | text plain =>
    refine isRead_push read ?_ ?_
    · rw [Front.of_text filled plain]
      rfl
    · simpa [Tree.IsRead, Leaf.IsRead, readText, Cursor.skip] using
        textIsRead_of_textStretch filled plain
  | mustache markup first found =>
    apply isRead_push read
    · rw [begins markup, first]
      rfl
    · exact Cursor.meets_of_readMustache found
  | comment markup first found =>
    rename_i form value
    apply isRead_push read
    · rw [begins markup, first]
      cases form <;> rfl
    · exact isRead_of_pastTerminator? found
  | lone markup first name found whole =>
    apply isRead_push read
    · rw [begins markup, first]
      rfl
    · exact ⟨tagIsRead_of_readAttributes markup first name found, fun _ => rfl, trivial⟩
  | enterElement markup first name found ordinary =>
    apply isRead_enter _ read
    · rw [begins markup, first]
      rfl
    · exact ⟨tagIsRead_of_readAttributes markup first name found, ordinary⟩
  | closeElement markup first inside name found =>
    have legal := read.openings _ (inside ▸ List.mem_cons_self)
    apply isRead_close _ read inside
    · rw [begins markup, first]
      rfl
    · rfl
    · exact legal.1
    · exact legal.2
  | enterBlock markup first found =>
    apply isRead_enter _ read
    · rw [begins markup, first]
      rfl
    · exact Cursor.meets_of_readCall found
  | closeBlock markup first inside found name closed =>
    have legal := read.openings _ (inside ▸ List.mem_cons_self)
    apply isRead_close _ read inside
    · rw [begins markup, first]
      rfl
    · rfl
    · exact Call.meets_asRead_withSpan .nowhere legal
    · rfl

/-- Reading to the end of the source gives trees with the form of what was read. -/
theorem allRead_of_run {trees : List Tree} (read : reading.IsRead cursor.rest)
    (found : reading.run cursor = .ok (trees, after)) : AllRead trees .stop := by
  fun_induction run reading cursor with
  | case1 reading cursor ended closed =>
    obtain ⟨rfl, -⟩ := Prod.mk.inj (Except.ok.inj found)
    have siblings := read.siblings
    rwa [ended] at siblings
  | case2 => cases found
  | case3 => cases found
  | case4 reading cursor filled next behind step ih =>
    exact ih (isRead_of_moves read filled (moves_of_step step)) found

end Tree.Reading

/-- The trees of every source have the form of what was read. -/
theorem Tree.allRead_of_read {source : String} {trees : List Tree} {cursor : Cursor}
    (found : Tree.read source = .ok (trees, cursor)) : AllRead trees .stop := by
  exact Reading.allRead_of_run (Reading.isRead_start _) found

end LayoutMarkup
