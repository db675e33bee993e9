import LayoutMarkup.Proofs.Call.FaultPlaces
import LayoutMarkup.Proofs.Source.Places
import LayoutMarkup.Proofs.Template.Covering

/-! Where faults in templates are found. Whatever is wrong with a source, the fault names a place between
two characters of it; what the source leaves unfinished is missed where the source ends. -/

namespace LayoutMarkup

/-- A place of a source in lines and columns: the line feeds before it are counted, and the characters
behind the last of them. -/
structure Position.IsAt (position : Position) {source : String} (place : source.Pos) : Prop where
  line : position.line = 1 + (source.sliceTo place).copy.toList.count '\n'
  column : position.column = ((source.sliceTo place).copy.toList.rtakeWhile (· ≠ '\n')).length

namespace Cursor

variable {cursor : Cursor} {fault : Fault}

theorem isAhead_of_readParts {quote : Char} (refused : cursor.readParts quote = .error fault) :
    fault.IsAhead cursor := by
  fun_induction readParts cursor quote with
  | case1 cursor stretch behind none =>
    cases refused
    apply isAhead_fault (cursor.reaches_skip stretch.length)
    intro
    exact List.head?_eq_none_iff.mp none
  | case2 => cases refused
  | case3 cursor stretch behind c next other inner mustache =>
    cases refused
    exact (isAhead_of_readMustache mustache).of_reaches (cursor.reaches_skip stretch.length)
  | case4 cursor stretch behind c next other call after mustache inner rest ih =>
    cases refused
    have reached := (cursor.reaches_skip stretch.length).trans (span_of_readMustache mustache).1
    exact (ih rest).of_reaches reached
  | case5 => cases refused

theorem isAhead_of_readValue (refused : cursor.readValue = .error fault) : fault.IsAhead cursor := by
  simp only [readValue] at refused
  split at refused
  · split at refused
    · rename_i parts
      cases refused
      exact (isAhead_of_readParts parts).of_reaches (cursor.reaches_skip 1)
    · cases refused
  · split at refused
    · split at refused
      · rename_i mustache
        cases refused
        exact isAhead_of_readMustache mustache
      · cases refused
    · cases refused

theorem isAhead_of_readAttribute (refused : cursor.readAttribute = .error fault) :
    fault.IsAhead cursor := by
  simp only [readAttribute] at refused
  split at refused
  · cases refused
    exact isAhead_fault ⟨[], .refl cursor⟩ False.elim
  · split at refused
    · cases refused
    · rename_i eaten
      split at refused
      · rename_i value
        cases refused
        have reached := (cursor.reaches_skip _).trans ⟨_, passes_of_eat? eaten⟩
        exact (isAhead_of_readValue value).of_reaches reached
      · cases refused

/-- A start tag misses its end where the source ends; other faults are found in one of its attributes. -/
theorem isAhead_of_readAttributes {tag : String}
    (refused : cursor.readAttributes tag = .error fault) : fault.IsAhead cursor := by
  fun_induction readAttributes cursor tag with
  | case1 => cases refused
  | case2 => cases refused
  | case3 cursor front _ _ ended =>
    cases refused
    apply isAhead_fault (cursor.reaches_skip _)
    intro
    exact List.isEmpty_iff.mp ended
  | case4 cursor front _ _ _ inner attr =>
    cases refused
    exact (isAhead_of_readAttribute attr).of_reaches (cursor.reaches_skip _)
  | case5 cursor front _ _ _ attr after found inner rest ih =>
    cases refused
    have reached := (cursor.reaches_skip _).trans (reaches_of_readAttribute found)
    exact (ih rest).of_reaches reached
  | case6 => cases refused

end Cursor

namespace Tree.Reading

variable {reading : Reading} {cursor : Cursor} {fault : Fault}

theorem isAhead_of_readMustache (refused : reading.readMustache cursor = .error fault) :
    fault.IsAhead cursor := by
  unfold readMustache at refused
  split at refused
  · rename_i mustache
    cases refused
    exact Cursor.isAhead_of_readMustache mustache
  · cases refused

theorem isAhead_of_readComment {form : CommentForm}
    (refused : reading.readComment cursor form = .error fault) : fault.IsAhead cursor := by
  simp only [readComment] at refused
  split at refused
  · cases refused
    exact Cursor.isAhead_fault (cursor.reaches_skip _) False.elim
  · cases refused

theorem isAhead_of_openElement (refused : reading.openElement cursor = .error fault) :
    fault.IsAhead cursor := by
  simp only [openElement] at refused
  split at refused
  · rename_i attributes
    cases refused
    exact (Cursor.isAhead_of_readAttributes attributes).of_reaches (reaches_behindTag cursor 1)
  · split at refused <;> cases refused

/-- A closing tag that does not fit is complained about where it starts. -/
theorem isAhead_of_closeElement (refused : reading.closeElement cursor = .error fault) :
    fault.IsAhead cursor := by
  unfold closeElement at refused
  split at refused
  · dsimp only at refused
    split at refused
    · cases refused
      exact Cursor.isAhead_fault ⟨[], .refl cursor⟩ False.elim
    · split at refused
      · cases refused
        have blank := (behindTag cursor 2).reaches_skip ((behindTag cursor 2).run Unicode.isBlank).length
        exact Cursor.isAhead_fault ((reaches_behindTag cursor 2).trans blank) False.elim
      · cases refused
  · cases refused
    exact Cursor.isAhead_fault ⟨[], .refl cursor⟩ False.elim

theorem isAhead_of_openBlock {opening : Nat}
    (refused : reading.openBlock cursor opening = .error fault) : fault.IsAhead cursor := by
  unfold openBlock at refused
  split at refused
  · rename_i call
    cases refused
    exact (Cursor.isAhead_of_readCall call).of_reaches (cursor.reaches_skip opening)
  · cases refused

theorem isAhead_of_closeBlock {opening : Nat}
    (refused : reading.closeBlock cursor opening = .error fault) : fault.IsAhead cursor := by
  unfold closeBlock at refused
  split at refused
  · split at refused
    · rename_i path
      cases refused
      exact (Cursor.isAhead_of_readPath path).of_reaches (cursor.reaches_skip opening)
    · rename_i path
      split at refused
      · cases refused
        exact Cursor.isAhead_fault ⟨[], .refl cursor⟩ False.elim
      · split at refused
        · rename_i close
          cases refused
          obtain ⟨gap, -, named⟩ := Cursor.passes_of_readPath path
          have reached := (cursor.reaches_skip opening).trans ⟨_, named⟩
          exact (Cursor.isAhead_of_readClose close).of_reaches reached
        · cases refused
  · cases refused
    exact Cursor.isAhead_fault ⟨[], .refl cursor⟩ False.elim

theorem isAhead_of_step (refused : reading.step cursor = .error fault) : fault.IsAhead cursor := by
  unfold step at refused
  split at refused
  · unfold readMarkup at refused
    split at refused
    · exact isAhead_of_closeElement refused
    · exact isAhead_of_closeBlock refused
    · cases refused
      exact Cursor.isAhead_fault ⟨[], .refl cursor⟩ False.elim
    · exact isAhead_of_readComment refused
    · exact isAhead_of_openBlock refused
    · cases refused
      exact Cursor.isAhead_fault ⟨[], .refl cursor⟩ False.elim
    · exact isAhead_of_readMustache refused
    · exact isAhead_of_openElement refused
  · cases refused

/-- Branches that are still open are missed at the end, and every other fault is one of a step. -/
theorem isAhead_of_run (refused : reading.run cursor = .error fault) : fault.IsAhead cursor := by
  fun_induction run reading cursor with
  | case1 => cases refused
  | case2 reading cursor ended innermost outer opened =>
    cases refused
    exact Cursor.isAhead_fault ⟨[], .refl cursor⟩ fun _ => ended
  | case3 reading cursor filled inner step =>
    cases refused
    exact isAhead_of_step step
  | case4 reading cursor filled reading' after moved ih =>
    exact (ih refused).of_reaches (reaches_of_moves (moves_of_step moved))

end Tree.Reading

/-- A cursor that has nothing left stands at the end of its source. -/
theorem Cursor.StandsAt.eq_endPos {cursor : Cursor} {source : String} {place : source.Pos}
    (stands : cursor.StandsAt place) (ended : cursor.rest = []) : place = source.endPos := by
  have bytes := stands.bytes
  rw [bytesLeft, ended, List.foldr_nil, Nat.add_zero] at bytes
  exact String.Pos.ext (String.Pos.Raw.ext bytes)

/-- What is ahead of the start of a source is at a place of it. -/
theorem Fault.IsAhead.exists_isAt {fault : Fault} {source : String}
    (ahead : fault.IsAhead (.ofString source)) :
    ∃ place : source.Pos, fault.position.IsAt place ∧
      (fault.cause.IsUnfinished → place = source.endPos) := by
  obtain ⟨cursor, ⟨consumed, passed⟩, position, ended⟩ := ahead
  obtain ⟨place, splits⟩ := Cursor.exists_splits_of_passes passed
  have stands := Cursor.standsAt_of_splits passed splits
  refine ⟨place, ?_, fun unfinished => stands.eq_endPos (ended unfinished)⟩
  rw [position]
  exact ⟨stands.line, stands.column⟩

namespace Template

/-- The fault of a source that is no template. -/
def fault? (source : String) : Option Fault :=
  match read source with
  | .error fault => some fault
  | .ok _ => none

theorem fault?_eq_some_iff {source : String} {fault : Fault} :
    fault? source = some fault ↔ read source = .error fault := by
  unfold fault?
  cases read source <;> simp

/-- A source that is no template is found to be none at one of its places, and at its end if it leaves
an element, a block, a start tag, a mustache, a string or a value unfinished. -/
theorem fault_is_in_source {source : String} {fault : Fault} (refused : read source = .error fault) :
    ∃ place : source.Pos, fault.position.IsAt place ∧
      (fault.cause.IsUnfinished → place = source.endPos) := by
  apply Fault.IsAhead.exists_isAt
  unfold read at refused
  split at refused
  · rename_i step
    cases refused
    exact Tree.Reading.isAhead_of_run step
  · cases refused

/-- On the second line a string lacks its quote, its mustache its braces and its element a closing tag;
the string is missed, behind all five characters of the line. -/
theorem fault_is_in_source_of_open_string :
    let source := "<p>é\n\x7b\x7b \"b"
    read source = .error ⟨.unterminatedString, ⟨2, 5⟩⟩ ∧ Cause.unterminatedString.IsUnfinished ∧
      ∃ place : source.Pos, Position.IsAt ⟨2, 5⟩ place ∧ place = source.endPos := by
  intro source
  have refused : read source = .error ⟨.unterminatedString, ⟨2, 5⟩⟩ :=
    fault?_eq_some_iff.mp (by decide +kernel)
  obtain ⟨place, here, ended⟩ := fault_is_in_source refused
  exact ⟨refused, trivial, place, here, ended trivial⟩

end Template

end LayoutMarkup
