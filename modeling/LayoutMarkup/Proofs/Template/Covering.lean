import LayoutMarkup.Proofs.Template.AttributeText
import LayoutMarkup.Proofs.Template.CanonicalReading
import LayoutMarkup.Proofs.Template.Steps
import LayoutMarkup.Proofs.Template.Subtrees

/-! Trees over the text they were read from. A leaf covers its piece of the text; a branch covers an
opening, what its children cover one after the other, and a closing. While a template is being read,
its open branches and their finished children cover what has been passed. -/

namespace LayoutMarkup

namespace Cursor

variable {cursor after : Cursor}

theorem reaches_of_readParts {quote : Char} {parts : List Part}
    (found : cursor.readParts quote = .ok (parts, after)) : cursor.Reaches after :=
  let ⟨_, text, passed, _⟩ := covers_of_readParts found
  ⟨text, passed⟩

theorem reaches_of_readValue {value : AttributeValue}
    (found : cursor.readValue = .ok (value, after)) : cursor.Reaches after :=
  let ⟨text, passed, _⟩ := covers_of_readValue found
  ⟨text, passed⟩

/-- An attribute reaches on from the end of its name. -/
theorem reaches_behindName {attr : Attribute} (found : cursor.readAttribute = .ok (attr, after)) :
    (cursor.skip (cursor.run isAttributeNameChar).length).Reaches after := by
  simp only [readAttribute] at found
  split at found
  · cases found
  · split at found
    · cases found
      exact ⟨[], Passes.refl _⟩
    · rename_i eaten
      split at found
      · cases found
      · rename_i value
        cases found
        exact Reaches.trans ⟨_, passes_of_eat? eaten⟩ (reaches_of_readValue value)

theorem reaches_of_readAttribute {attr : Attribute}
    (found : cursor.readAttribute = .ok (attr, after)) : cursor.Reaches after :=
  let ⟨text, passed, _⟩ := covers_of_readAttribute found
  ⟨text, passed⟩

theorem reaches_of_readAttributes {tag : String} {attrs : List Attribute} {selfClosing : Bool}
    (found : cursor.readAttributes tag = .ok (attrs, selfClosing, after)) : cursor.Reaches after :=
  let ⟨text, passed, _⟩ := covers_of_readAttributes found
  ⟨text, passed⟩

end Cursor

/-- A closing tag; blanks may stand behind its name. -/
def IsClosingTag (tag : String) (text : List Char) : Prop :=
  ∃ blanks, text = ['<', '/'] ++ tag.toList ++ blanks ++ ['>'] ∧
    ∀ c ∈ blanks, Unicode.isBlank c = true

/-- A mustache that closes the block of a name. -/
def IsClosingMustache (name : String) (text : List Char) : Prop :=
  ∃ sign gap behind, text = ['{', '{'] ++ sign ++ ['/'] ++ gap ++ name.toList ++ behind ++ ['}', '}'] ∧
    (sign = [] ∨ sign = ['~']) ∧ IsGap gap ∧ IsGap behind

/-- What the text of a leaf has to be. -/
def Leaf.Holds (content : Leaf) (text : List Char) : Prop :=
  match content with
  | .text literal => literal.chars.toList = text
  | .mustache _ | .comment _ => True

/-- The opening and the closing that a head puts around the text of its children. -/
def Head.Wraps (head : Head) (start : Position) (opening body closing : List Char) : Prop :=
  match head with
  | .program _ => False
  | .element el =>
    IsStartTag el.tag el.attributes start opening ∧
      if el.selfClosing || isVoidTag el.tag then body = [] ∧ closing = []
      else IsClosingTag el.tag closing
  | .block inner =>
    opening ≠ [] ∧ inner.bodySpan = ⟨start.after opening, (start.after opening).after body⟩ ∧
      IsClosingMustache inner.path.name closing

namespace Tree

mutual

/-- A tree covers a text that begins at a place. -/
def Covers : Tree → Position → List Char → Prop
  | .leaf content, start, text =>
    text ≠ [] ∧ content.span = ⟨start, start.after text⟩ ∧ content.Holds text
  | .branch head trees, start, text =>
    head.span = ⟨start, start.after text⟩ ∧
      ∃ opening body closing, text = opening ++ body ++ closing ∧
        head.Wraps start opening body closing ∧ CoversAll trees (start.after opening) body

/-- Trees cover a text one after the other. -/
def CoversAll : List Tree → Position → List Char → Prop
  | [], _, text => text = []
  | tree :: trees, start, text =>
    ∃ first rest, text = first ++ rest ∧ Covers tree start first ∧
      CoversAll trees (start.after first) rest

end

theorem CoversAll.concat {trees : List Tree} {tree : Tree} {start : Position} {text piece : List Char}
    (covered : CoversAll trees start text) (next : Covers tree (start.after text) piece) :
    CoversAll (trees ++ [tree]) start (text ++ piece) := by
  induction trees generalizing start text with
  | nil =>
    obtain rfl : text = [] := covered
    exact ⟨piece, [], by simp, next, rfl⟩
  | cons first trees ih =>
    obtain ⟨front, rest, rfl, one, others⟩ := covered
    rw [Position.after_append] at next
    exact ⟨front, rest ++ piece, List.append_assoc _ _ _, one, ih others next⟩

end Tree

/-- What the text of an opening has to be. -/
def Opening.Covers (opening : Opening) (start : Position) (text : List Char) : Prop :=
  match opening with
  | .element tag attributes begin =>
    begin = start ∧ IsStartTag tag attributes start text ∧ isVoidTag tag = false
  | .block _ begin bodyStart => begin = start ∧ text ≠ [] ∧ bodyStart = start.after text

/-- Open branches, innermost first, cover a text: the trees before each of them and its opening. -/
def OpenBranch.CoverAll : List OpenBranch → Position → List Char → Prop
  | [], _, text => text = []
  | branch :: outer, start, text =>
    ∃ above between opening, text = above ++ between ++ opening ∧ CoverAll outer start above ∧
      Tree.CoversAll branch.before.reverse (start.after above) between ∧
      branch.opening.Covers ((start.after above).after between) opening

namespace Tree.Reading

/-- What has been read covers what has been passed. -/
def Covers (reading : Reading) (start : Position) (text : List Char) : Prop :=
  ∃ above body, text = above ++ body ∧ OpenBranch.CoverAll reading.branches start above ∧
    CoversAll reading.siblings.reverse (start.after above) body

variable {reading : Reading} {start : Position} {text piece : List Char}

theorem Covers.push {tree : Tree} (covered : reading.Covers start text)
    (next : tree.Covers (start.after text) piece) :
    (reading.push tree).Covers start (text ++ piece) := by
  obtain ⟨above, body, rfl, outside, inside⟩ := covered
  rw [Position.after_append] at next
  refine ⟨above, body ++ piece, List.append_assoc _ _ _, outside, ?_⟩
  simp only [Reading.push, List.reverse_cons]
  exact inside.concat next

theorem Covers.enter {opening : Opening} (covered : reading.Covers start text)
    (next : opening.Covers (start.after text) piece) :
    (reading.enter opening).Covers start (text ++ piece) := by
  obtain ⟨above, body, rfl, outside, inside⟩ := covered
  rw [Position.after_append] at next
  exact ⟨above ++ body ++ piece, [], by simp, ⟨above, body, piece, rfl, outside, inside, next⟩, rfl⟩

/-- A branch that is left covers its opening, its children and its closing. -/
theorem Covers.leave {opening : Opening} {before : List Tree} {outer : List OpenBranch}
    (inside : reading.branches = ⟨opening, before⟩ :: outer) (covered : reading.Covers start text) :
    ∃ front front' body, text = front ++ (front' ++ body) ∧ opening.Covers (start.after front) front' ∧
      ∀ head closing, head.span = ⟨start.after front, start.after (text ++ closing)⟩ →
        head.Wraps (start.after front) front' body closing →
        Covers ⟨outer, .branch head reading.siblings.reverse :: before⟩ start (text ++ closing) := by
  obtain ⟨above', body, rfl, outside, within⟩ := covered
  rw [inside] at outside
  obtain ⟨above, between, front, rfl, outside, earlier, opened⟩ := outside
  refine ⟨above ++ between, front, body, by simp, by rwa [Position.after_append], ?_⟩
  intro head closing span wraps
  refine ⟨above, between ++ (front ++ body ++ closing), by simp, outside, ?_⟩
  simp only [List.reverse_cons]
  simp only [Position.after_append] at span wraps within
  refine earlier.concat ⟨?_, front, body, closing, rfl, wraps, within⟩
  simp only [Position.after_append, span]

theorem front_of_closingTag {text : List Char} (first : Markup.first text = .closingTag) :
    ['<', '/'] <+: text := by
  simp only [Markup.first, ite_eq_iff, reduceCtorEq, and_false, and_true, or_false] at first
  exact List.isPrefixOf_iff_prefix.mp first

/-- What opens the closing of a block. -/
theorem front_of_blockClose {text : List Char} {opening : Nat}
    (first : Markup.first text = .blockClose opening) :
    ∃ sign, (sign = [] ∨ sign = ['~']) ∧ opening = (['{', '{'] ++ sign ++ ['/']).length ∧
      ['{', '{'] ++ sign ++ ['/'] <+: text := by
  simp only [Markup.first, ite_eq_iff, reduceCtorEq, and_false, false_or, or_false,
    Markup.blockClose.injEq] at first
  obtain ⟨-, ⟨front, rfl⟩ | ⟨-, front, rfl⟩⟩ := first
  · exact ⟨[], .inl rfl, rfl, List.isPrefixOf_iff_prefix.mp front⟩
  · exact ⟨['~'], .inr rfl, rfl, List.isPrefixOf_iff_prefix.mp front⟩

variable {reading' : Reading} {cursor after : Cursor}

theorem reaches_behindTag (cursor : Cursor) (count : Nat) : cursor.Reaches (behindTag cursor count) :=
  (cursor.reaches_skip count).trans (Cursor.reaches_skip _ _)

/-- Every move reaches forward. -/
theorem reaches_of_moves (moves : Moves reading cursor reading' after) : cursor.Reaches after := by
  cases moves with
  | text plain => exact cursor.reaches_skip _
  | mustache markup first found => exact (Cursor.span_of_readMustache found).1
  | comment markup first found =>
    exact (cursor.reaches_skip _).trans ⟨_, Cursor.passes_of_pastTerminator? found⟩
  | lone markup first name found whole =>
    exact (reaches_behindTag cursor 1).trans (Cursor.reaches_of_readAttributes found)
  | enterElement markup first name found ordinary =>
    exact (reaches_behindTag cursor 1).trans (Cursor.reaches_of_readAttributes found)
  | closeElement markup first inside name found =>
    have blank := (behindTag cursor 2).reaches_skip ((behindTag cursor 2).run Unicode.isBlank).length
    exact ((reaches_behindTag cursor 2).trans blank).trans ⟨_, Cursor.passes_of_eat? found⟩
  | enterBlock markup first found =>
    exact (cursor.reaches_skip _).trans (Cursor.span_of_readCall found).1
  | closeBlock markup first inside found name closed =>
    obtain ⟨gap, -, named⟩ := Cursor.passes_of_readPath found
    obtain ⟨gap', -, ended⟩ := Cursor.passes_of_readClose closed
    exact (cursor.reaches_skip _).trans ⟨_, named.trans ended⟩

/-- The angle bracket, the slash if there is one, and the name of a tag. -/
theorem passes_behindTag {mark : List Char} (front : mark <+: cursor.rest) :
    cursor.Passes (mark ++ tagBehind cursor mark.length) (behindTag cursor mark.length) :=
  (Cursor.passes_of_prefix front).trans (Cursor.passes_run _ isTagChar)

theorem passes_startTag {attributes : List Attribute} {closing : Bool} {tag : String}
    (markup : startsMarkup cursor.rest = true) (first : Markup.first cursor.rest = .startTag)
    (name : tag = String.ofList (tagBehind cursor 1))
    (found : (behindTag cursor 1).readAttributes tag = .ok (attributes, closing, after)) :
    ∃ piece, cursor.Passes piece after ∧ IsStartTag tag attributes cursor.position piece := by
  obtain ⟨c, rest, shape, -⟩ := startsTag_of_first markup first
  have front : ['<'] <+: cursor.rest := ⟨c :: rest, shape.symm⟩
  have named : cursor.Passes ('<' :: tag.toList) (behindTag cursor 1) := by
    rw [name, String.toList_ofList]
    exact passes_behindTag front
  obtain ⟨others, behind, covered⟩ := Cursor.covers_of_readAttributes found
  rw [named.position] at covered
  exact ⟨_, named.trans behind, others, rfl, covered⟩

/-- What one move passes is covered by what the move adds. -/
theorem covers_of_moves (moves : Moves reading cursor reading' after) (filled : cursor.rest ≠ [])
    (covered : reading.Covers start text) (here : cursor.position = start.after text) :
    ∃ piece, cursor.Passes piece after ∧ reading'.Covers start (text ++ piece) := by
  have shorter := length_of_step filled (step_of_moves moves)
  cases moves with
  | text plain =>
    obtain ⟨tail, shape, -⟩ := stretch_spec startsMarkup cursor.rest
    rw [← textStretch_eq_stretch] at shape
    have passed := Cursor.passes_of_prefix ⟨tail, shape.symm⟩
    refine ⟨_, passed, covered.push ⟨passed.ne_nil shorter, ?_, String.toList_ofList⟩⟩
    rw [← here, ← passed.position]
    rfl
  | mustache markup first found =>
    obtain ⟨⟨piece, passed⟩, span⟩ := Cursor.span_of_readMustache found
    refine ⟨piece, passed, covered.push ⟨passed.ne_nil shorter, ?_, trivial⟩⟩
    rw [← here, ← passed.position]
    exact span
  | comment markup first found =>
    have passed := (cursor.passes_skip _).trans (Cursor.passes_of_pastTerminator? found)
    refine ⟨_, passed, covered.push ⟨passed.ne_nil shorter, ?_, trivial⟩⟩
    rw [← here, ← passed.position]
    rfl
  | lone markup first name found whole =>
    obtain ⟨piece, passed, opens⟩ := passes_startTag markup first name found
    rw [here] at opens
    refine ⟨piece, passed, covered.push ⟨?_, piece, [], [], by simp, ?_, rfl⟩⟩
    · rw [← here, ← passed.position]
      rfl
    · exact ⟨opens, by simp [whole]⟩
  | enterElement markup first name found ordinary =>
    obtain ⟨piece, passed, opens⟩ := passes_startTag markup first name found
    rw [here] at opens
    exact ⟨piece, passed, covered.enter ⟨here, opens, ordinary⟩⟩
  | closeElement markup first inside name found =>
    obtain ⟨blanks, blank, gap⟩ := (behindTag cursor 2).exists_passes_skipBlank
    have passed := ((passes_behindTag (front_of_closingTag first)).trans gap).trans
      (Cursor.passes_of_eat? found)
    obtain ⟨above, opened, body, rfl, ⟨rfl, begins, ordinary⟩, close⟩ := covered.leave inside
    refine ⟨_, passed, close _ _ ?_ ⟨begins, ?_⟩⟩
    · rw [Position.after_append, ← here, ← passed.position]
      rfl
    · simp only [ordinary, Bool.or_self, Bool.false_eq_true, if_false]
      exact ⟨blanks, by simp [name], blank⟩
  | enterBlock markup first found =>
    obtain ⟨⟨others, behind⟩, -⟩ := Cursor.span_of_readCall found
    have passed := (cursor.passes_skip _).trans behind
    refine ⟨_, passed, covered.enter ⟨here, passed.ne_nil shorter, ?_⟩⟩
    rw [← here, ← passed.position]
  | closeBlock markup first inside found name closed =>
    obtain ⟨sign, isSign, rfl, front⟩ := front_of_blockClose first
    obtain ⟨gap, isGap, named⟩ := Cursor.passes_of_readPath found
    obtain ⟨gap', isGap', ended⟩ := Cursor.passes_of_readClose closed
    have passed := (Cursor.passes_of_prefix front).trans (named.trans ended)
    obtain ⟨above, opened, body, rfl, ⟨rfl, begins, rfl⟩, close⟩ := covered.leave inside
    refine ⟨_, passed, close _ _ ?_ ⟨begins, ?_, sign, gap, gap', ?_, isSign, isGap, isGap'⟩⟩
    · rw [Position.after_append, ← here, ← passed.position]
      rfl
    · simp only [here, Position.after_append]
    · simp [name]

/-- What is read up to the end covers all of the text. -/
theorem coversAll_of_run {trees : List Tree} {last : Cursor}
    (finished : reading.run cursor = .ok (trees, last)) (covered : reading.Covers start text)
    (here : cursor.position = start.after text) :
    CoversAll trees start (text ++ cursor.rest) ∧
      last.position = start.after (text ++ cursor.rest) := by
  fun_induction run reading cursor generalizing text with
  | case1 reading cursor ended closed =>
    cases finished
    obtain ⟨above, body, rfl, outside, inside⟩ := covered
    rw [closed] at outside
    obtain rfl : above = [] := outside
    rw [ended, List.append_nil]
    exact ⟨inside, here⟩
  | case2 => cases finished
  | case3 => cases finished
  | case4 reading cursor filled reading' after moved ih =>
    obtain ⟨piece, passed, covered'⟩ := covers_of_moves (moves_of_step moved) filled covered here
    rw [passed.rest, ← List.append_assoc]
    exact ih finished covered' (by rw [passed.position, here, Position.after_append])

end Tree.Reading

/-- The trees of a source cover all of it. -/
theorem Tree.coversAll_of_read {source : String} {trees : List Tree} {last : Cursor}
    (finished : Tree.read source = .ok (trees, last)) :
    CoversAll trees .start source.toList ∧ last.position = Position.start.after source.toList :=
  Reading.coversAll_of_run finished ⟨[], [], rfl, rfl, rfl⟩ rfl

namespace Tree

mutual

/-- Every tree within a tree covers a piece of its text. -/
theorem exists_covers_of_mem_subtrees : ∀ (tree : Tree) (start : Position) (text : List Char),
    tree.Covers start text → ∀ below ∈ tree.subtrees, ∃ before piece behind,
      text = before ++ piece ++ behind ∧ below.Covers (start.after before) piece
  | .leaf content, start, text, covered, below, member => by
    obtain rfl := List.mem_singleton.mp member
    exact ⟨[], text, [], by simp, covered⟩
  | .branch head trees, start, text, covered, below, member => by
    rcases List.mem_cons.mp member with rfl | deeper
    · exact ⟨[], text, [], by simp, covered⟩
    · obtain ⟨-, opening, body, closing, rfl, -, inside⟩ := covered
      obtain ⟨before, piece, behind, rfl, covered'⟩ :=
        exists_covers_of_mem_subtreesAll trees _ _ inside below deeper
      refine ⟨opening ++ before, piece, behind ++ closing, by simp, ?_⟩
      rwa [Position.after_append]

theorem exists_covers_of_mem_subtreesAll : ∀ (trees : List Tree) (start : Position)
    (text : List Char), CoversAll trees start text → ∀ below ∈ subtreesAll trees,
      ∃ before piece behind, text = before ++ piece ++ behind ∧
        below.Covers (start.after before) piece
  | tree :: trees, start, text, covered, below, member => by
    obtain ⟨first, rest, rfl, one, others⟩ := covered
    rcases List.mem_append.mp member with inside | behind
    · obtain ⟨before, piece, behind, rfl, covered'⟩ :=
        exists_covers_of_mem_subtrees tree _ _ one below inside
      exact ⟨before, piece, behind ++ rest, by simp, covered'⟩
    · obtain ⟨before, piece, behind, rfl, covered'⟩ :=
        exists_covers_of_mem_subtreesAll trees _ _ others below behind
      refine ⟨first ++ before, piece, behind, by simp, ?_⟩
      rwa [Position.after_append]

end

end Tree

end LayoutMarkup
