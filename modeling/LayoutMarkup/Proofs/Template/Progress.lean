import LayoutMarkup.Proofs.Lexeme.Moves
import LayoutMarkup.Proofs.Template.Loops
import LayoutMarkup.Proofs.Template.NodeCount

/-! Progress. Every turn of the loops that read a template makes progress and no reader goes back, so that
the reading of every source ends, and ends soon. -/

namespace LayoutMarkup

namespace Tree.Reading

variable {reading reading' : Reading} {cursor after : Cursor}

theorem reaches_of_readMustache (found : reading.readMustache cursor = .ok (reading', after)) :
    cursor.Reaches after := by
  unfold readMustache at found
  split at found
  · cases found
  · rename_i mustache
    cases found
    exact (Cursor.span_of_readMustache mustache).1

theorem reaches_of_readComment {form : CommentForm}
    (found : reading.readComment cursor form = .ok (reading', after)) : cursor.Reaches after := by
  simp only [readComment] at found
  split at found
  · cases found
  · rename_i past
    cases found
    exact (cursor.reaches_skip _).trans ⟨_, Cursor.passes_of_pastTerminator? past⟩

theorem reaches_of_openElement (found : reading.openElement cursor = .ok (reading', after)) :
    cursor.Reaches after := by
  simp only [openElement] at found
  split at found
  · cases found
  · rename_i attributes
    have reached := (reaches_behindTag cursor 1).trans (Cursor.reaches_of_readAttributes attributes)
    split at found <;> cases found <;> exact reached

theorem reaches_of_closeElement (found : reading.closeElement cursor = .ok (reading', after)) :
    cursor.Reaches after := by
  unfold closeElement at found
  split at found
  · dsimp only at found
    split at found
    · cases found
    · split at found
      · cases found
      · rename_i eaten
        cases found
        have blank : (behindTag cursor 2).Reaches (behindTag cursor 2).skipBlank := Cursor.reaches_skip _ _
        exact ((reaches_behindTag cursor 2).trans blank).trans ⟨_, Cursor.passes_of_eat? eaten⟩
  · cases found

theorem reaches_of_openBlock {opening : Nat}
    (found : reading.openBlock cursor opening = .ok (reading', after)) : cursor.Reaches after := by
  unfold openBlock at found
  split at found
  · cases found
  · rename_i call
    cases found
    exact (cursor.reaches_skip opening).trans (Cursor.span_of_readCall call).1

theorem reaches_of_closeBlock {opening : Nat}
    (found : reading.closeBlock cursor opening = .ok (reading', after)) : cursor.Reaches after := by
  unfold closeBlock at found
  repeat' split at found
  · cases found
  · cases found
  · cases found
  · rename_i path _ _ _ close
    cases found
    obtain ⟨_, -, named⟩ := Cursor.passes_of_readPath path
    obtain ⟨_, -, ended⟩ := Cursor.passes_of_readClose close
    exact (cursor.reaches_skip opening).trans ⟨_, named.trans ended⟩
  · cases found

end Tree.Reading

open Tree.Reading

/-- Each of the five loops makes progress and comes to what the reading of its text gives, and whatever
opens a branch or a call has passed a character for it. -/
structure LoopsMakeProgress : Prop where
  content : ∀ reading, contentLoop.Makes (fun _ => reading) reading.run
  text : (stretchLoop startsMarkup).Makes (fun _ => []) fun cursor =>
    .ok (textStretch cursor.rest, cursor.skip (textStretch cursor.rest).length)
  startTag : ∀ tag, (Cursor.startTagLoop tag).Makes (fun _ => []) fun cursor =>
    (cursor.readAttributes tag).map fun (attributes, closing, last) => ((attributes, closing), last)
  value : ∀ quote, (Cursor.quotedLoop quote).Makes (fun cursor => .empty cursor.position) fun cursor =>
    cursor.readParts quote
  arguments : ∀ reading, Call.Reading.argumentsLoop.Makes (fun _ => reading) reading.run
  branches : contentLoop.Pays fun reading => reading.branches.length
  calls : Call.Reading.argumentsLoop.Pays fun reading => reading.outer.length

theorem loops_make_progress : LoopsMakeProgress where
  content := makes_contentLoop
  text := by
    simp only [textStretch_eq_stretch]
    exact makes_stretchLoop startsMarkup
  startTag := Cursor.makes_startTagLoop
  value := Cursor.makes_quotedLoop
  arguments := Call.Reading.makes_argumentsLoop
  branches := pays_contentLoop
  calls := Call.Reading.pays_argumentsLoop

/-- No reader goes back, from the moves of a cursor up to the content of a template. -/
structure ReadersGoForward : Prop where
  moves : ∀ (cursor : Cursor) (move : Cursor.Move), cursor.Reaches (cursor.perform move).2
  lexeme : Cursor.GoesForward fun cursor =>
    cursor.readLexeme.1.map fun placed => (placed, cursor.readLexeme.2)
  path : Cursor.GoesForward Cursor.readPath
  close : Cursor.GoesForward fun cursor => cursor.readClose.map fun after => ((), after)
  call : ∀ start, Cursor.GoesForward fun cursor => cursor.readCall start
  mustache : Cursor.GoesForward Cursor.readMustache
  parts : ∀ quote, Cursor.GoesForward fun cursor => cursor.readParts quote
  value : Cursor.GoesForward Cursor.readValue
  attr : Cursor.GoesForward Cursor.readAttribute
  attrs : ∀ tag, Cursor.GoesForward fun cursor =>
    (cursor.readAttributes tag).map fun (attributes, closing, last) => ((attributes, closing), last)
  text : ∀ reading : Tree.Reading, Cursor.GoesForward fun cursor => .ok (reading.readText cursor)
  statement : ∀ reading : Tree.Reading, Cursor.GoesForward reading.readMustache
  comment : ∀ (reading : Tree.Reading) form,
    Cursor.GoesForward fun cursor => reading.readComment cursor form
  startTag : ∀ reading : Tree.Reading, Cursor.GoesForward reading.openElement
  closingTag : ∀ reading : Tree.Reading, Cursor.GoesForward reading.closeElement
  blockOpen : ∀ (reading : Tree.Reading) opening,
    Cursor.GoesForward fun cursor => reading.openBlock cursor opening
  blockClose : ∀ (reading : Tree.Reading) opening,
    Cursor.GoesForward fun cursor => reading.closeBlock cursor opening
  content : ∀ reading : Tree.Reading, Cursor.GoesForward reading.run

theorem Cursor.goesForward_readLexeme :
    GoesForward fun cursor => cursor.readLexeme.1.map fun placed => (placed, cursor.readLexeme.2) := by
  intro cursor
  rcases found : cursor.readLexeme with ⟨fault | placed, after⟩ <;> simp only [found, Except.map]
  · exact ⟨by rintro _ _ ⟨⟩, by rintro _ ⟨⟩; exact isAhead_of_readLexeme found⟩
  · exact ⟨by rintro _ _ ⟨⟩; exact reaches_of_readLexeme found, by rintro _ ⟨⟩⟩

theorem Cursor.goesForward_readClose :
    GoesForward fun cursor => cursor.readClose.map fun after => ((), after) := by
  intro cursor
  cases found : cursor.readClose with
  | error fault =>
    simp only [found, Except.map]
    exact ⟨by rintro _ _ ⟨⟩, by rintro _ ⟨⟩; exact isAhead_of_readClose found⟩
  | ok after =>
    simp only [found, Except.map]
    obtain ⟨_, -, passed⟩ := passes_of_readClose found
    exact ⟨by rintro _ _ ⟨⟩; exact ⟨_, passed⟩, by rintro _ ⟨⟩⟩

theorem readers_go_forward : ReadersGoForward where
  moves cursor move :=
    let ⟨_, does⟩ := cursor.does_perform move
    ⟨_, does.passes⟩
  lexeme := Cursor.goesForward_readLexeme
  path _ := ⟨fun _ _ found => let ⟨_, _, passed⟩ := Cursor.passes_of_readPath found; ⟨_, passed⟩,
    fun _ => Cursor.isAhead_of_readPath⟩
  close := Cursor.goesForward_readClose
  call _ := (Call.Reading.makes_argumentsLoop _).goesForward
  mustache _ := ⟨fun _ _ found => (Cursor.span_of_readMustache found).1,
    fun _ => Cursor.isAhead_of_readMustache⟩
  parts quote := (Cursor.makes_quotedLoop quote).goesForward
  value _ := ⟨fun _ _ => Cursor.reaches_of_readValue, fun _ => Cursor.isAhead_of_readValue⟩
  attr _ := ⟨fun _ _ => Cursor.reaches_of_readAttribute, fun _ => Cursor.isAhead_of_readAttribute⟩
  attrs tag := (Cursor.makes_startTagLoop tag).goesForward
  text reading cursor := ⟨by rintro _ _ ⟨⟩; exact cursor.reaches_skip _, by rintro _ ⟨⟩⟩
  statement _ _ := ⟨fun _ _ => reaches_of_readMustache, fun _ => isAhead_of_readMustache⟩
  comment _ _ _ := ⟨fun _ _ => reaches_of_readComment, fun _ => isAhead_of_readComment⟩
  startTag _ _ := ⟨fun _ _ => reaches_of_openElement, fun _ => isAhead_of_openElement⟩
  closingTag _ _ := ⟨fun _ _ => reaches_of_closeElement, fun _ => isAhead_of_closeElement⟩
  blockOpen _ _ _ := ⟨fun _ _ => reaches_of_openBlock, fun _ => isAhead_of_openBlock⟩
  blockClose _ _ _ := ⟨fun _ _ => reaches_of_closeBlock, fun _ => isAhead_of_closeBlock⟩
  content reading := (makes_contentLoop reading).goesForward

namespace Template

/-- The loops that read a source make progress, and no reader goes back, whatever the source is. So the
reading of a source ends, within one turn more than it has characters, and what it gives has no more nodes
than the source has characters, beside the root. -/
theorem reading_progresses (source : String) :
    LoopsMakeProgress ∧ ReadersGoForward ∧
      (∃ result, contentLoop.run (source.length + 1) .start (.ofString source) = some result ∧
        read source = result.map fun (trees, last) => ofTrees trees ⟨.start, last.position⟩) ∧
      ∀ template, read source = .ok template → template.size ≤ source.length + 1 := by
  refine ⟨loops_make_progress, readers_go_forward, ⟨Tree.read source, ?_, ?_⟩, fun _ => size_le_of_read⟩
  · have ended := (makes_contentLoop .start).ends (.ofString source)
    rwa [Cursor.ofString, String.length_toList] at ended
  · unfold read
    cases Tree.read source <;> rfl

/-- A source of one character that gives as many nodes as one character may. -/
theorem reading_progresses_to_bound :
    ∃ template, read "a" = .ok template ∧ template.size = "a".length + 1 ∧
      template.size ≤ "a".length + 1 := by
  have holds : (read "a").toOption.any (fun template => template.size = 2) = true := by decide +kernel
  obtain ⟨template, found, size⟩ := exists_of_any holds
  exact ⟨template, found, of_decide_eq_true size, (reading_progresses "a").2.2.2 template found⟩

end Template

end LayoutMarkup
