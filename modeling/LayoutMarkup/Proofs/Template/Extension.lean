import LayoutMarkup.Proofs.Call.Extension
import LayoutMarkup.Proofs.Template.Covering
import LayoutMarkup.Proofs.Template.Values

/-! Templates whose source goes on. What was read of a source is read in the same way when more text
follows, up to its last piece, unless this is a text: only a text may go on behind the end. -/

namespace LayoutMarkup

section

variable {text : List Char}

theorem startsMustache_more (c d : Char) (rest more : List Char) :
    startsMustache (c :: d :: rest ++ more) = startsMustache (c :: d :: rest) := by
  simp [startsMustache, List.isPrefixOf]

/-- Whether an unquoted value that ends before its text begins with braces. -/
theorem startsMustache_more_of_bare (left : text.drop (text.takeWhile isBareValueChar).length ≠ [])
    (more : List Char) : startsMustache (text ++ more) = startsMustache text := by
  match text with
  | [] => exact absurd List.drop_nil left
  | [c] =>
    by_cases brace : c = '{'
    · subst brace
      exact absurd rfl left
    · simp [startsMustache, List.isPrefixOf, Ne.symm brace]
  | c :: d :: rest => exact startsMustache_more c d rest more

/-- A literal stretch that ends before its text does not depend on what follows. -/
theorem literalStretch_more {quote : Char} (left : text.drop (literalStretch quote text).length ≠ [])
    (more : List Char) : literalStretch quote (text ++ more) = literalStretch quote text := by
  induction text with
  | nil => exact absurd List.drop_nil left
  | cons c rest ih =>
    by_cases quoted : c = quote
    · simp [literalStretch, quoted]
    cases rest with
    | nil => simp [literalStretch, quoted, startsMustache, List.isPrefixOf] at left
    | cons d rest =>
      rw [List.cons_append, literalStretch, ← List.cons_append, startsMustache_more, literalStretch]
      split
      · rfl
      · rename_i plain
        rw [literalStretch, if_neg plain] at left
        rw [ih left]

end

namespace Cursor

variable {cursor after last : Cursor}

theorem peek?_extend {c : Char} (peeked : cursor.peek? = some c) (more : List Char) :
    (cursor.extend more).peek? = some c := by
  obtain ⟨rest, shape⟩ := List.head?_eq_some_iff.mp peeked
  simp [peek?, extend, shape]

theorem ne_nil_of_peek? {c : Char} (peeked : cursor.peek? = some c) : cursor.rest ≠ [] := by
  intro nothing
  simp [peek?, nothing] at peeked

theorem readParts_extend {quote : Char} {parts : List Part}
    (found : cursor.readParts quote = .ok (parts, last)) (more : List Char) :
    (cursor.extend more).readParts quote = .ok (parts, last.extend more) ∧ last.rest ≠ [] := by
  fun_induction readParts cursor quote generalizing parts last with
  | case1 => cases found
  | case2 =>
    rename_i cursor stretch behind literal peeked
    cases found
    have left := ne_nil_of_peek? peeked
    have skipped := skip_extend_of_left left more
    have again := peek?_extend peeked more
    rw [← skipped] at again
    refine ⟨?_, left⟩
    rw [readParts_of_quote (literalStretch_more left more) again, skipped]
    rfl
  | case3 => cases found
  | case4 => cases found
  | case5 =>
    rename_i cursor stretch behind literal c peeked other call after step rest last' ran ih
    cases found
    have left := ne_nil_of_peek? peeked
    have skipped := skip_extend_of_left left more
    have again := peek?_extend peeked more
    rw [← skipped] at again
    have mustache := readMustache_extend step more
    rw [← skipped] at mustache
    obtain ⟨others, left'⟩ := ih ran
    refine ⟨?_, left'⟩
    rw [readParts_of_mustache (literalStretch_more left more) again other mustache others, skipped]
    rfl

theorem readValue_extend {value : AttributeValue} (found : cursor.readValue = .ok (value, after))
    (left : after.rest ≠ []) (more : List Char) :
    (cursor.extend more).readValue = .ok (value, after.extend more) := by
  have filled := (reaches_of_readValue found).left left
  simp only [readValue] at found ⊢
  rw [sees_extend '"' filled, sees_extend '\'' filled]
  split at found
  · rename_i quoted
    rw [if_pos quoted]
    split at found
    · cases found
    · rename_i parts last ran
      cases found
      obtain ⟨again, inside⟩ := readParts_extend ran more
      have first : (cursor.extend more).skip 1 = (cursor.skip 1).extend more :=
        skip_extend (List.length_pos_iff.mpr filled) more
      have quote : (cursor.extend more).peek? = cursor.peek? := List.head?_append_of_ne_nil _ filled
      rw [first, quote, again]
      simp only [skip_extend_of_left left more]
      rfl
  · rename_i unquoted
    rw [if_neg unquoted]
    split at found
    · rename_i opens
      have again : startsMustache (cursor.extend more).rest = true := by
        obtain ⟨rest, shape⟩ := startsMustache_iff.mp opens
        exact startsMustache_iff.mpr ⟨rest ++ more, by rw [extend, shape]; rfl⟩
      rw [if_pos again]
      split at found
      · cases found
      · rename_i call behind step
        cases found
        rw [readMustache_extend step more]
    · rename_i plain
      cases found
      have again : startsMustache (cursor.extend more).rest = startsMustache cursor.rest :=
        startsMustache_more_of_bare left more
      rw [again, if_neg plain, run_extend left more, skip_extend_of_left left more]
      rfl

theorem readAttribute_extend {attr : Attribute} (found : cursor.readAttribute = .ok (attr, after))
    (left : after.rest ≠ []) (more : List Char) :
    (cursor.extend more).readAttribute = .ok (attr, after.extend more) := by
  have behind := (reaches_behindName found).left left
  simp only [readAttribute] at found ⊢
  rw [run_extend behind more, skip_extend_of_left behind more, eat?_extend '=' behind more]
  split at found
  · cases found
  · rename_i named
    rw [if_neg named]
    split at found
    · rename_i nothing
      cases found
      rw [nothing]
      rfl
    · rename_i front eaten
      split at found
      · cases found
      · rename_i value last ran
        cases found
        rw [eaten]
        simp only [Option.map_some, readValue_extend ran left more]
        rfl

/-- An attribute begins with its name. -/
theorem head_of_readAttribute {attr : Attribute} (found : cursor.readAttribute = .ok (attr, after)) :
    ∃ c rest, cursor.rest = c :: rest ∧ isAttributeNameChar c = true := by
  simp only [readAttribute] at found
  split at found
  · cases found
  · rename_i filled
    cases shape : cursor.rest with
    | nil => simp [run, shape] at filled
    | cons c rest =>
      refine ⟨c, rest, rfl, ?_⟩
      by_contra other
      simp [run, shape, other] at filled

/-- A start tag is read in the same way when more text follows; an angle bracket ends it. -/
theorem readAttributes_extend {tag : String} {attrs : List Attribute} {selfClosing : Bool}
    (found : cursor.readAttributes tag = .ok (attrs, selfClosing, last)) (more : List Char) :
    (cursor.extend more).readAttributes tag = .ok (attrs, selfClosing, last.extend more) ∧
      '>' ∈ cursor.rest := by
  fun_induction readAttributes cursor tag generalizing attrs selfClosing last with
  | case1 cursor front =>
    rename_i closes
    cases found
    have closed := mem_of_sees closes (List.mem_cons_of_mem '/' List.mem_cons_self)
    have blank : (cursor.extend more).skipBlank = front.extend more :=
      skipBlank_extend (List.ne_nil_of_mem closed) more
    refine ⟨?_, (cursor.reaches_skip _).subset closed⟩
    have behind : (front.extend more).skip 2 = (front.skip 2).extend more :=
      skip_extend (length_le_of_sees closes) more
    rw [readAttributes_eq, blank, if_pos (sees_extend_of_sees closes more), behind]
  | case2 cursor front =>
    rename_i closes
    cases found
    have closed := mem_of_sees closes List.mem_cons_self
    have blank : (cursor.extend more).skipBlank = front.extend more :=
      skipBlank_extend (List.ne_nil_of_mem closed) more
    have open' : (front.extend more).sees ['/', '>'] = false := by
      obtain ⟨tail, shape⟩ := sees_iff.mp closes
      simp [sees, extend, ← shape, List.isPrefixOf]
    have behind : (front.extend more).skip 1 = (front.skip 1).extend more :=
      skip_extend (length_le_of_sees closes) more
    refine ⟨?_, (cursor.reaches_skip _).subset closed⟩
    rw [readAttributes_eq, blank, if_neg (by simp [open']), if_pos (sees_extend_of_sees closes more),
      behind]
  | case3 => cases found
  | case4 => cases found
  | case5 => cases found
  | case6 =>
    rename_i cursor front _ _ _ attr behind step rest _ _ ran ih
    cases found
    obtain ⟨others, closed⟩ := ih ran
    have again := readAttribute_extend step (List.ne_nil_of_mem closed) more
    have reached := reaches_of_readAttribute step
    have blank : (cursor.extend more).skipBlank = front.extend more :=
      skipBlank_extend (List.ne_nil_of_mem (reached.subset closed)) more
    obtain ⟨c, tail, shape, named⟩ := head_of_readAttribute step
    have longer : (front.extend more).rest = c :: (tail ++ more) := by
      rw [extend, shape]
      rfl
    obtain ⟨slash, angle, filled⟩ := unclosed_of_head longer named
    refine ⟨?_, (cursor.reaches_skip _).subset (reached.subset closed)⟩
    rw [readAttributes_eq, blank, if_neg (by simp [slash]), if_neg (by simp [angle]),
      if_neg (by simp [filled]), again]
    simp only [others]

end Cursor

/-- A text with one of the characters that end markup. -/
def HoldsEnd (text : List Char) : Prop := '}' ∈ text ∨ '>' ∈ text

section

variable {text : List Char}

theorem HoldsEnd.of_subset {part : List Char} (holds : HoldsEnd part) (within : part ⊆ text) :
    HoldsEnd text := holds.imp (within ·) (within ·)

theorem HoldsEnd.ne_nil (holds : HoldsEnd text) : text ≠ [] :=
  holds.elim List.ne_nil_of_mem List.ne_nil_of_mem

/-- What does not hold the end of markup begins a text that does, or it does not. -/
theorem HoldsEnd.isPrefixOf_more (holds : HoldsEnd text) (more : List Char) {pattern : List Char}
    (brace : '}' ∉ pattern) (angle : '>' ∉ pattern) :
    pattern.isPrefixOf (text ++ more) = pattern.isPrefixOf text :=
  holds.elim (isPrefixOf_append_of_mem · brace more) (isPrefixOf_append_of_mem · angle more)

theorem HoldsEnd.startsTag_more (holds : HoldsEnd text) (more : List Char) :
    startsTag (text ++ more) = startsTag text := by
  match text with
  | [] => exact absurd rfl holds.ne_nil
  | [c] =>
    have other : c ≠ '<' := by
      rintro rfl
      rcases holds with member | member <;> exact absurd member (by decide)
    simp [startsTag, other]
  | c :: d :: rest => by_cases angle : c = '<' <;> simp [startsTag, angle]

theorem HoldsEnd.startsMarkup_more (holds : HoldsEnd text) (more : List Char) :
    startsMarkup (text ++ more) = startsMarkup text := by
  simp (disch := decide) only [startsMarkup, startsMustache, holds.isPrefixOf_more,
    holds.startsTag_more]

theorem HoldsEnd.first_more (holds : HoldsEnd text) (more : List Char) :
    Markup.first (text ++ more) = Markup.first text := by
  have same : ∀ pattern : List Char, '}' ∉ pattern ∧ '>' ∉ pattern →
      pattern.isPrefixOf (text ++ more) = pattern.isPrefixOf text :=
    fun _ free => holds.isPrefixOf_more more free.1 free.2
  unfold Markup.first startsMustache
  rw [same ['<', '/'] (by decide), same ['{', '{', '/'] (by decide),
    same ['{', '{', '~', '/'] (by decide), same ['{', '{', 'e', 'l', 's', 'e'] (by decide),
    same ['<', '!', '-', '-'] (by decide), same ['{', '{', '!', '-', '-'] (by decide),
    same ['{', '{', '!'] (by decide), same ['{', '{', '#'] (by decide),
    same ['{', '{', '~', '#'] (by decide), same ['{', '{', '{'] (by decide),
    same ['{', '{'] (by decide)]

/-- A text before something that ends as markup does is the same when more follows. -/
theorem textStretch_more (holds : HoldsEnd (text.drop (textStretch text).length)) (more : List Char) :
    textStretch (text ++ more) = textStretch text := by
  obtain ⟨tail, shape, ended, inside⟩ := stretch_spec startsMarkup text
  rw [← textStretch_eq_stretch] at shape inside
  generalize textStretch text = front at *
  subst shape
  rw [List.drop_left] at holds
  rw [List.append_assoc, textStretch_eq_stretch]
  apply stretch_append
  · intro rest suffix filled
    rw [← List.append_assoc, (holds.of_subset (List.subset_append_right rest tail)).startsMarkup_more]
    exact inside rest suffix filled
  · exact .inr (startsMarkup_append (ended.resolve_left holds.ne_nil) more)

end

namespace Tree.Reading

variable {reading reading' : Reading} {cursor after : Cursor} {count : Nat}

theorem behindTag_extend (left : (behindTag cursor count).rest ≠ []) (more : List Char) :
    tagBehind (cursor.extend more) count = tagBehind cursor count ∧
      behindTag (cursor.extend more) count = (behindTag cursor count).extend more := by
  have front := Cursor.skip_extend_of_left (Cursor.Reaches.left (Cursor.reaches_skip _ _) left) more
  have name : tagBehind (cursor.extend more) count = tagBehind cursor count := by
    rw [tagBehind, front]
    exact Cursor.run_extend left more
  refine ⟨name, ?_⟩
  rw [behindTag, name, front]
  exact Cursor.skip_extend_of_left left more

/-- Markup that was read has ended. -/
theorem holdsEnd_of_moves (moves : Moves reading cursor reading' after)
    (markup : startsMarkup cursor.rest = true) : HoldsEnd cursor.rest := by
  cases moves with
  | text plain =>
    rw [plain] at markup
    cases markup
  | mustache markup first found => exact .inl (Cursor.mem_of_readMustache found)
  | comment markup first found =>
    rename_i form value
    have passed := (Cursor.passes_of_pastTerminator? found).rest
    have ended : HoldsEnd (cursor.skip form.opening).rest := by
      rw [passed]
      cases form <;> simp [HoldsEnd, CommentForm.terminator]
    exact ended.of_subset (cursor.reaches_skip _).subset
  | lone markup first name found whole =>
    exact .inr ((reaches_behindTag cursor 1).subset (Cursor.readAttributes_extend found []).2)
  | enterElement markup first name found ordinary =>
    exact .inr ((reaches_behindTag cursor 1).subset (Cursor.readAttributes_extend found []).2)
  | closeElement markup first inside name found =>
    have passed := (Cursor.passes_of_eat? found).rest
    have ended : HoldsEnd (behindTag cursor 2).skipBlank.rest := by simp [HoldsEnd, passed]
    exact ended.of_subset
      ((reaches_behindTag cursor 2).trans (Cursor.reaches_skip _ _)).subset
  | enterBlock markup first found =>
    exact .inl ((cursor.reaches_skip _).subset (Call.Reading.mem_of_run found))
  | closeBlock markup first inside found name closed =>
    obtain ⟨gap, -, named⟩ := Cursor.passes_of_readPath found
    obtain ⟨gap', -, ended⟩ := Cursor.passes_of_readClose closed
    have reached := (cursor.reaches_skip _).trans ⟨_, named⟩
    exact .inl (reached.subset (by simp [ended.rest]))

/-- A move is the same move when more text follows, unless it takes a text up to the end. -/
theorem moves_extend (moves : Moves reading cursor reading' after)
    (ended : startsMarkup cursor.rest = true ∨ HoldsEnd after.rest) (more : List Char) :
    Moves reading (cursor.extend more) reading' (after.extend more) := by
  have begins : startsMarkup cursor.rest = true → startsMarkup (cursor.extend more).rest = true ∧
      Markup.first (cursor.extend more).rest = Markup.first cursor.rest := by
    intro markup
    have holds := holdsEnd_of_moves moves markup
    exact ⟨(holds.startsMarkup_more more).trans markup, holds.first_more more⟩
  cases moves with
  | text plain =>
    have holds := ended.resolve_left (by simp [plain])
    have whole := holds.of_subset (cursor.reaches_skip (textStretch cursor.rest).length).subset
    have stretch : textStretch (cursor.extend more).rest = textStretch cursor.rest :=
      textStretch_more holds more
    have again : Moves reading (cursor.extend more) _ _ :=
      .text ((whole.startsMarkup_more more).trans plain)
    simp only [readText, stretch, Cursor.skip_extend_of_left holds.ne_nil more] at again
    exact again
  | mustache markup first found =>
    obtain ⟨markup', same⟩ := begins markup
    exact .mustache markup' (same.trans first) (Cursor.readMustache_extend found more)
  | comment markup first found =>
    rename_i form value
    obtain ⟨markup', same⟩ := begins markup
    have passed := (Cursor.passes_of_pastTerminator? found).rest
    have left : (cursor.skip form.opening).rest ≠ [] := by
      rw [passed]
      cases form <;> simp [CommentForm.terminator]
    have again := Cursor.pastTerminator?_extend found more
    rw [← Cursor.skip_extend_of_left left more] at again
    exact .comment markup' (same.trans first) again
  | lone markup first name found whole =>
    obtain ⟨markup', same⟩ := begins markup
    obtain ⟨again, closed⟩ := Cursor.readAttributes_extend found more
    obtain ⟨tag, behind⟩ := behindTag_extend (List.ne_nil_of_mem closed) more
    exact .lone markup' (same.trans first) (tag ▸ name) (behind ▸ again) whole
  | enterElement markup first name found ordinary =>
    obtain ⟨markup', same⟩ := begins markup
    obtain ⟨again, closed⟩ := Cursor.readAttributes_extend found more
    obtain ⟨tag, behind⟩ := behindTag_extend (List.ne_nil_of_mem closed) more
    exact .enterElement markup' (same.trans first) (tag ▸ name) (behind ▸ again) ordinary
  | closeElement markup first inside name found =>
    obtain ⟨markup', same⟩ := begins markup
    have blank : (behindTag cursor 2).skipBlank.rest ≠ [] := by
      simp [(Cursor.passes_of_eat? found).rest]
    obtain ⟨tag, behind⟩ := behindTag_extend (Cursor.Reaches.left (Cursor.reaches_skip _ _) blank) more
    have eaten : (behindTag (cursor.extend more) 2).skipBlank.eat? ['>'] = some (after.extend more) := by
      rw [behind, Cursor.skipBlank_extend blank more, Cursor.eat?_extend '>' blank more, found]
      rfl
    exact .closeElement markup' (same.trans first) inside (tag ▸ name) eaten
  | enterBlock markup first found =>
    obtain ⟨markup', same⟩ := begins markup
    have again := Cursor.readCall_extend found more
    rw [← Cursor.skip_extend_of_left (Call.Reading.left_of_run found) more] at again
    exact .enterBlock markup' (same.trans first) again
  | closeBlock markup first inside found name closed =>
    obtain ⟨markup', same⟩ := begins markup
    obtain ⟨gap, -, named⟩ := Cursor.passes_of_readPath found
    obtain ⟨gap', -, ends⟩ := Cursor.passes_of_readClose closed
    rename_i opening call start bodyStart before outer path behind
    have left : behind.rest ≠ [] := by simp [ends.rest]
    have again := Cursor.readPath_extend found left more
    have front : (cursor.skip opening).Reaches behind := ⟨_, named⟩
    rw [← Cursor.skip_extend_of_left (front.left left) more] at again
    exact .closeBlock markup' (same.trans first) inside again name (Cursor.readClose_extend closed more)

/-- Behind a text that is not the last piece markup follows, and it has ended. -/
theorem holdsEnd_behind_text {trees : List Tree} {last : Cursor}
    (found : (reading.readText cursor).1.run (reading.readText cursor).2 = .ok (trees, last))
    (solid : ∀ literal, trees.getLast? ≠ some (.leaf (.text literal))) :
    HoldsEnd (reading.readText cursor).2.rest := by
  by_cases nothing : (reading.readText cursor).2.rest = []
  · rw [run_eq, if_pos nothing] at found
    split at found
    · cases found
      exact absurd (List.getLast?_reverse.trans List.head?_cons) (solid _)
    · cases found
  · obtain ⟨tail, shape, ended, -⟩ := stretch_spec startsMarkup cursor.rest
    rw [← textStretch_eq_stretch] at shape
    have behind : (reading.readText cursor).2.rest = tail := Cursor.rest_skip shape
    obtain ⟨reading', after, moves, -⟩ := exists_moves_of_run nothing found
    rw [behind] at nothing
    exact holdsEnd_of_moves moves (behind ▸ ended.resolve_left nothing)

/-- What was read up to the end without a text there is read in the same way when more text follows, and
then the reading goes on behind it. -/
theorem run_extend {trees : List Tree} {last : Cursor} (found : reading.run cursor = .ok (trees, last))
    (solid : ∀ literal, trees.getLast? ≠ some (.leaf (.text literal))) (more : List Char) :
    reading.run (cursor.extend more) = run ⟨[], trees.reverse⟩ ⟨more, last.position⟩ := by
  fun_induction run reading cursor with
  | case1 reading cursor finished closed =>
    cases found
    obtain ⟨branches, siblings⟩ := reading
    obtain rfl : branches = [] := closed
    rw [List.reverse_reverse, Cursor.extend, finished]
    rfl
  | case2 => cases found
  | case3 => cases found
  | case4 reading cursor filled reading' after moved ih =>
    have moves := moves_of_step moved
    have ended : startsMarkup cursor.rest = true ∨ HoldsEnd after.rest := by
      by_cases markup : startsMarkup cursor.rest = true
      · exact .inl markup
      · cases moves with
        | text plain => exact .inr (holdsEnd_behind_text found solid)
        | _ => contradiction
    have longer : (cursor.extend more).rest ≠ [] := List.append_ne_nil_of_left_ne_nil filled more
    rw [run_of_moves longer (moves_extend moves ended more)]
    exact ih found

end Tree.Reading

end LayoutMarkup
