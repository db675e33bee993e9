import LayoutMarkup.Proofs.Template.Alignment

/-! The pieces of written trees for a reading that keeps up. Over every piece it goes on keeping up, and
the piece is reprintable, but for a mustache that closes a block. -/

namespace LayoutMarkup

open Lexeme

theorem Call.meets_of_write_eq_name {call : Call} (bare : call.write = call.path.name.toList) :
    call.meets .unescaped = true := by
  obtain ⟨path, params, hash, span⟩ := call
  simp only [write, List.append_assoc] at bare
  obtain ⟨positional, named⟩ := List.append_eq_nil_iff.mp (List.append_right_eq_self.mp bare)
  cases params with
  | cons value rest => cases positional
  | nil =>
    rcases hash with - | ⟨- | ⟨⟨key, value, span⟩, rest⟩, around⟩
    · rfl
    · rfl
    · cases named

namespace Tree.Reading

/-- A reading that keeps up until some text is left, and has fewer blocks open then. -/
def GoesOn (reading : Reading) (tail : List Char) (lost : Nat) : Prop :=
  ∃ reading' after, KeepsUp reading' after ∧ after.rest = tail ∧
    reading'.depth + lost = reading.depth

variable {reading : Reading} {cursor : Cursor} {tail : List Char}

theorem goesOn_text {text : List Char} (keeps : reading.KeepsUp cursor)
    (read : TextIsRead text (Front.of tail)) (shape : cursor.rest = text ++ tail) :
    reading.GoesOn tail 0 := by
  have plain : startsMarkup cursor.rest = false := by
    rw [shape]
    exact startsMarkup_of_textIsRead read
  have filled : cursor.rest ≠ [] := by
    rw [shape]
    simp [read.filled]
  have taken := textStretch_append read
  rw [← shape] at taken
  obtain ⟨rest, whole, keeps'⟩ :=
    rest_of_keepsUp keeps filled (.text plain) (written_push _)
  simp only [write, Leaf.write, String.toList_ofList, taken] at whole
  have left : (reading.readText cursor).2.rest = tail := by
    simp only [readText, taken]
    exact Cursor.rest_skip shape
  refine ⟨_, _, keeps' ?_, left, rfl⟩
  rw [left]
  exact List.append_cancel_left (shape.symm.trans whole)

theorem goesOn_comment {comment : Comment} (keeps : reading.KeepsUp cursor) (read : comment.IsRead)
    (shape : cursor.rest = comment.write ++ tail) : reading.GoesOn tail 0 := by
  obtain ⟨form, after, markup, first, same, past, left⟩ := comment_written read shape
  obtain ⟨rest, whole, keeps'⟩ := rest_of_keepsUp keeps (ne_nil_of_startsMarkup markup)
    (.comment markup first past) (written_push _)
  refine ⟨_, after, keeps' ?_, left, rfl⟩
  rw [left]
  rw [shape] at whole
  simp only [write, Leaf.write, Comment.write, String.ofList_toList, same] at whole
  exact List.append_cancel_left whole

/-- A mustache that is no mark goes on as itself. -/
theorem goesOn_mustache {call : Call} (keeps : reading.KeepsUp cursor)
    (met : call.meets .asRead = true) (plain : startsMark call.path.name.toList = false)
    (shape : cursor.rest = call.writeMustache ++ tail) :
    call.meets .unescaped = true ∧ reading.GoesOn tail 0 := by
  have legible := Call.meets_of_implies Demands.asRead_implies_legible call met
  obtain ⟨args, written, begins⟩ := call.write_eq_name_append
  have front : cursor.rest =
      '{' :: '{' :: (call.path.name.toList ++ (args ++ '}' :: '}' :: tail)) := by
    simp [shape, Call.writeMustache, written]
  have first : Markup.first cursor.rest = .mustache := by
    rw [front]
    exact Markup.first_mustache (Call.Reading.isName_of_meets legible)
      (endsWord_args begins (endsWord_brace _)) plain
  have markup : startsMarkup cursor.rest = true := startsMarkup_iff.mpr (.inl ⟨_, front⟩)
  obtain ⟨read, after, found, left, -⟩ := Cursor.readMustache_write legible shape
  obtain ⟨rest, whole, keeps'⟩ := rest_of_keepsUp keeps (ne_nil_of_startsMarkup markup)
    (.mustache markup first found) (written_push _)
  obtain ⟨same, -, rfl⟩ := Cursor.unescaped_of_readMustache met shape found whole
  exact ⟨same, _, after, keeps' left, left, rfl⟩

/-- No mustache that begins like an `else` is read at all. -/
theorem not_else_of_keepsUp {call : Call} (keeps : reading.KeepsUp cursor)
    (shape : cursor.rest = call.writeMustache ++ tail) :
    ['e', 'l', 's', 'e'].isPrefixOf call.path.name.toList = false := by
  rw [← Bool.not_eq_true]
  intro mark
  obtain ⟨letters, word⟩ := List.isPrefixOf_iff_prefix.mp mark
  obtain ⟨args, written, -⟩ := call.write_eq_name_append
  have front : cursor.rest =
      '{' :: '{' :: 'e' :: 'l' :: 's' :: 'e' :: (letters ++ (args ++ '}' :: '}' :: tail)) := by
    simp [shape, Call.writeMustache, written, ← word]
  have markup : startsMarkup cursor.rest = true := startsMarkup_iff.mpr (.inl ⟨_, front⟩)
  have first : Markup.first cursor.rest = .elseMark := by
    rw [front]
    rfl
  obtain ⟨reading', after, moves⟩ := exists_moves_of_keepsUp keeps (ne_nil_of_startsMarkup markup)
  cases moves <;> simp_all

/-- What closes a block is its name between braces, and nothing else is read. -/
theorem goesOn_of_blockClose {name : List Char} (keeps : reading.KeepsUp cursor)
    (shape : cursor.rest = '{' :: '{' :: '/' :: (name ++ tail))
    (joined : ∀ c ∈ name, isPathChar c = true) (ended : EndsWord tail) :
    ∃ rest, tail = '}' :: '}' :: rest ∧ reading.GoesOn rest 1 := by
  have markup : startsMarkup cursor.rest = true := startsMarkup_iff.mpr (.inl ⟨_, shape⟩)
  have filled := ne_nil_of_startsMarkup markup
  have first : Markup.first cursor.rest = .blockClose 3 := by
    rw [shape]
    rfl
  obtain ⟨reading', after, moves⟩ := exists_moves_of_keepsUp keeps filled
  cases moves with
  | closeBlock markup' first' inside found same closed =>
    rename_i opening call start bodyStart before outer path behind
    rw [first] at first'
    cases first'
    obtain ⟨rest, whole, keeps'⟩ := rest_of_keepsUp keeps filled
      (.closeBlock markup first inside found same closed) (written_closeBlock _ _ inside)
    have word : IsName path.name.toList := Cursor.isName_of_readPath found
    rw [← same] at whole
    have both : name ++ tail = path.name.toList ++ '}' :: '}' :: rest := by
      simpa [shape] using whole
    have taken : (name ++ tail).takeWhile isPathChar = name :=
      takeWhile_append_stop joined fun c first => (ended c first).1
    have taken' : (path.name.toList ++ '}' :: '}' :: rest).takeWhile isPathChar = path.name.toList :=
      takeWhile_append_stop word.joined (by rintro _ ⟨⟩; decide)
    obtain rfl : name = path.name.toList := by rw [← taken, both, taken']
    have left := List.append_cancel_left both
    have front : cursor.rest =
        ['{', '{', '/'] ++ (path.name.toList ++ '}' :: '}' :: rest) := by simp [shape, left]
    have inner : (cursor.skip 3).rest = path.name.toList ++ '}' :: '}' :: rest :=
      Cursor.rest_skip front
    obtain ⟨path', behind', found', between, -⟩ :=
      Cursor.readPath_write word (endsWord_brace _) inner
    rw [found] at found'
    cases found'
    obtain ⟨after', closed', last⟩ := Cursor.readClose_write between
    rw [closed] at closed'
    cases closed'
    exact ⟨rest, left, _, after, keeps' last, last, depth_close _ inside⟩
  | _ => simp_all

theorem goesOn_blockEnd {block : Block} (keeps : reading.KeepsUp cursor)
    (word : IsName block.path.name.toList) (shape : cursor.rest = block.writeEnd ++ tail) :
    reading.GoesOn tail 1 := by
  have front : cursor.rest = '{' :: '{' :: '/' :: (block.path.name.toList ++ '}' :: '}' :: tail) := by
    simp [shape, Block.writeEnd]
  obtain ⟨rest, left, goes⟩ := goesOn_of_blockClose keeps front word.joined (endsWord_brace _)
  cases left
  exact goes

/-- A mustache that begins with a slash closes a block. -/
theorem goesOn_slash {call : Call} (keeps : reading.KeepsUp cursor)
    (met : call.meets .asRead = true) (slash : ['/'].isPrefixOf call.path.name.toList = true)
    (shape : cursor.rest = call.writeMustache ++ tail) :
    call.meets .unescaped = true ∧ reading.GoesOn tail 1 := by
  have legible := Call.meets_of_implies Demands.asRead_implies_legible call met
  have joined := (Call.Reading.isName_of_meets legible).joined
  obtain ⟨letters, word⟩ := List.isPrefixOf_iff_prefix.mp slash
  obtain ⟨args, written, begins⟩ := call.write_eq_name_append
  rw [← word] at joined
  have front : cursor.rest = '{' :: '{' :: '/' :: (letters ++ (args ++ '}' :: '}' :: tail)) := by
    simp [shape, Call.writeMustache, written, ← word]
  obtain ⟨rest, left, goes⟩ := goesOn_of_blockClose keeps front
    (fun c member => joined c (by simp [member])) (endsWord_args begins (endsWord_brace _))
  rcases begins with rfl | blank
  · cases left
    exact ⟨Call.meets_of_write_eq_name (by rw [written, List.append_nil]), goes⟩
  · obtain ⟨others, rfl⟩ := List.head?_eq_some_iff.mp blank
    cases left

/-- A start tag that is read as one that is written as it was is reprintable. -/
theorem isReprintable_of_startTag {element read : Element} {after : Cursor} {rest : List Char}
    (legal : TagIsRead element.tag element.attributes)
    (shape : cursor.rest = element.writeStart ++ tail)
    (name : read.tag = String.ofList (tagBehind cursor 1))
    (found : (behindTag cursor 1).readAttributes read.tag =
      .ok (read.attributes, read.selfClosing, after))
    (again : cursor.rest = read.writeStart ++ rest) :
    element.attributes.all (fun attr => attr.value.isReprintable) = true ∧ after.rest = tail ∧
      rest = tail := by
  obtain ⟨-, -, word, behind⟩ := startTag_begins legal shape
  have same : read.tag = element.tag := by rw [name, word, String.ofList_toList]
  have front : (cursor.skip 1).rest = element.tag.toList ++
      (read.attributes.flatMap Attribute.write ++ (Cursor.endOfTag read.selfClosing ++ rest)) := by
    simp [Cursor.skip, again, Element.writeStart, Cursor.endOfTag, same]
  have behind' : (behindTag cursor 1).rest = read.attributes.flatMap Attribute.write ++
      (Cursor.endOfTag read.selfClosing ++ rest) := by
    rw [behindTag, word]
    exact Cursor.rest_skip front
  obtain ⟨sames, -, left, final⟩ :=
    Cursor.isReprintable_of_readAttributes legal.attributes behind found behind'
  exact ⟨by simpa using sames, left, final⟩

/-- The start tag of an element is reprintable. -/
theorem goesOn_startTag {element : Element} (keeps : reading.KeepsUp cursor)
    (legal : TagIsRead element.tag element.attributes)
    (shape : cursor.rest = element.writeStart ++ tail) :
    element.attributes.all (fun attr => attr.value.isReprintable) = true ∧
      reading.GoesOn tail 0 := by
  obtain ⟨markup, first, -, -⟩ := startTag_begins legal shape
  have filled := ne_nil_of_startsMarkup markup
  obtain ⟨reading', after, moves⟩ := exists_moves_of_keepsUp keeps filled
  cases moves with
  | lone _ _ name found lone =>
    obtain ⟨rest, whole, keeps'⟩ :=
      rest_of_keepsUp keeps filled (.lone markup first name found lone) (written_push _)
    simp only [write, Head.write, List.isEmpty_nil, Bool.true_and, lone, if_true] at whole
    obtain ⟨same, left, rfl⟩ := isReprintable_of_startTag legal shape name found whole
    exact ⟨same, _, after, keeps' left, left, rfl⟩
  | enterElement markup' first' name found ordinary =>
    rename_i tag attrs
    obtain ⟨rest, whole, keeps'⟩ := rest_of_keepsUp keeps filled
      (.enterElement markup first name found ordinary) (written_enter _)
    obtain ⟨same, left, rfl⟩ := @isReprintable_of_startTag cursor tail element
      ⟨tag, attrs, false, .nowhere⟩ after rest legal shape name found whole
    exact ⟨same, _, after, keeps' left, left, by simp [depth_enter, Opening.isBlock]⟩
  | _ => simp_all

theorem goesOn_endTag {element : Element} (keeps : reading.KeepsUp cursor)
    (joined : ∀ c ∈ element.tag.toList, isTagChar c = true)
    (shape : cursor.rest = element.writeEnd ++ tail) : reading.GoesOn tail 0 := by
  obtain ⟨markup, first, word, after, eaten, left⟩ := endTag_written joined shape
  have filled := ne_nil_of_startsMarkup markup
  obtain ⟨reading', after', moves⟩ := exists_moves_of_keepsUp keeps filled
  cases moves with
  | closeElement _ _ inside name found =>
    rw [eaten] at found
    cases found
    have legal := keeps.read.openings _ (inside ▸ List.mem_cons_self)
    obtain ⟨rest, whole, keeps'⟩ := rest_of_keepsUp keeps filled
      (.closeElement markup first inside name eaten) (written_closeElement _ inside legal.2)
    rw [name, word, String.ofList_toList, shape, Element.writeEnd] at whole
    obtain rfl := List.append_cancel_left whole
    exact ⟨_, after, keeps' left, left, depth_close _ inside⟩
  | _ => simp_all

theorem keepsUp_blockStart {block : Block} (keeps : reading.KeepsUp cursor)
    (met : block.call.meets .asRead = true) (shape : cursor.rest = block.writeStart ++ tail) :
    block.call.meets .unescaped = true ∧
      ∃ reading' after, KeepsUp reading' after ∧ after.rest = tail ∧
        reading'.depth = reading.depth + 1 := by
  have legible := Call.meets_of_implies Demands.asRead_implies_legible block.call met
  obtain ⟨markup, first, call, after, found, left, -⟩ := blockStart_written legible shape
  obtain ⟨rest, whole, keeps'⟩ := rest_of_keepsUp keeps (ne_nil_of_startsMarkup markup)
    (.enterBlock markup first found) (written_enter _)
  have front : cursor.rest = ['{', '{', '#'] ++ (block.call.write ++ '}' :: '}' :: tail) := by
    simp [shape, Block.writeStart_eq]
  have front' : cursor.rest = ['{', '{', '#'] ++ (call.write ++ '}' :: '}' :: rest) := by
    simp [whole, Opening.write]
  obtain ⟨same, -, rfl⟩ := Cursor.unescaped_of_readCall met (Cursor.rest_skip front) found
    (Cursor.rest_skip front')
  exact ⟨same, _, after, keeps' left, left, depth_enter _⟩

end Tree.Reading

end LayoutMarkup
