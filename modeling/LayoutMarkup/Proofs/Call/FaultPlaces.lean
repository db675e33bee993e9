import LayoutMarkup.Proofs.Call.Extent

/-! Where faults in calls are found. Some faults are found where the cursor stands and some at a place
that it has left behind again, such as the start of a lexeme that does not fit; but each is found at a
place that the cursor reaches on its way, and at the very end if something was left unfinished. -/

namespace LayoutMarkup

/-- Whether a fault is that the source ends within something that has begun. A comment without its end
is no such case: its end is missed right behind its beginning. -/
def Cause.IsUnfinished : Cause → Prop
  | .unclosedMustache | .unterminatedString | .unterminatedEscape | .unclosedStartTag _
  | .unterminatedValue | .unclosedElement | .unclosedBlock => True
  | _ => False

/-- A fault is ahead of a cursor if the cursor comes to its place; nothing is left there of what was
left unfinished. -/
def Fault.IsAhead (fault : Fault) (cursor : Cursor) : Prop :=
  ∃ place : Cursor, cursor.Reaches place ∧ fault.position = place.position ∧
    (fault.cause.IsUnfinished → place.rest = [])

/-- What is ahead of a later cursor is ahead of an earlier one. -/
theorem Fault.IsAhead.of_reaches {fault : Fault} {cursor after : Cursor}
    (reached : cursor.Reaches after) (ahead : fault.IsAhead after) : fault.IsAhead cursor := by
  obtain ⟨place, onward, position, ended⟩ := ahead
  exact ⟨place, reached.trans onward, position, ended⟩

namespace Lexeme

/-- A lexeme that is not finished takes all that is left. -/
theorem drop_of_read {text : List Char} {cause : Cause} {count : Nat}
    (refused : read text = (.error cause, count)) (unfinished : cause.IsUnfinished) :
    text.drop count = [] := by
  unfold read at refused
  split at refused
  · exact List.drop_nil
  · dsimp only at refused
    repeat' split at refused
    all_goals simp only [Prod.mk.injEq, reduceCtorEq, Except.error.injEq, false_and] at refused
    · obtain ⟨-, rfl⟩ := refused
      exact List.drop_length
    · obtain ⟨rfl, -⟩ := refused
      cases unfinished

end Lexeme

namespace Cursor

variable {cursor after place : Cursor} {fault : Fault} {cause : Cause}

/-- A fault is ahead of whoever comes to where it is found. -/
theorem isAhead_fault (reached : cursor.Reaches place) (ended : cause.IsUnfinished → place.rest = []) :
    (place.fault cause).IsAhead cursor := ⟨place, reached, rfl, ended⟩

theorem reaches_skipGap (cursor : Cursor) : cursor.Reaches cursor.skipGap :=
  let ⟨gap, _, passed⟩ := cursor.exists_passes_skipGap
  ⟨gap, passed⟩

theorem isAhead_of_readLexeme (refused : cursor.readLexeme = (.error fault, after)) :
    fault.IsAhead cursor := by
  simp only [readLexeme] at refused
  split at refused
  · simp at refused
  · rename_i cause count read
    cases refused
    exact isAhead_fault (cursor.reaches_skipGap.trans (reaches_skip _ count)) (Lexeme.drop_of_read read)

/-- A lexeme starts behind the gap in front of it. -/
theorem start_of_readLexeme {placed : Placed} (found : cursor.readLexeme = (.ok placed, after)) :
    placed.span.start = cursor.skipGap.position := by
  simp only [readLexeme] at found
  split at found
  · cases found
    rfl
  · simp at found

/-- A fault at the start of a lexeme is ahead of whoever reads the lexeme. -/
theorem isAhead_of_start {placed : Placed} (found : cursor.readLexeme = (.ok placed, after))
    (position : fault.position = placed.span.start) (finished : ¬ fault.cause.IsUnfinished) :
    fault.IsAhead cursor := by
  refine ⟨cursor.skipGap, cursor.reaches_skipGap, ?_, fun unfinished => absurd unfinished finished⟩
  rw [position, start_of_readLexeme found]

end Cursor

namespace Call.Reading

variable {reading : Reading} {placed : Placed} {fault : Fault}

theorem fault_of_takeArgument {call : OpenCall} {outer : List OpenCall}
    (refused : takeArgument call outer placed = .error fault) :
    fault = ⟨.expectedExpression placed.lexeme, placed.span.start⟩ := by
  unfold takeArgument at refused
  split at refused
  · cases refused
  · split at refused
    · cases refused
    · exact (Except.error.inj refused).symm

/-- A lexeme that does not fit is complained about where it starts. -/
theorem fault_of_step (refused : reading.step placed = .error fault) :
    fault.position = placed.span.start ∧ ¬ fault.cause.IsUnfinished := by
  have argument {call : OpenCall} {outer : List OpenCall}
      (refused : (takeArgument call outer placed).map (Sum.inr (α := Call)) = .error fault) :
      fault.position = placed.span.start ∧ ¬ fault.cause.IsUnfinished := by
    rw [fault_of_takeArgument (Except.map_eq_error refused)]
    exact ⟨rfl, id⟩
  unfold step at refused
  split at refused
  · split at refused
    · cases refused
    · cases refused
      exact ⟨rfl, id⟩
  · split at refused
    · exact argument refused
    · split at refused
      · split at refused <;> cases refused
      · split at refused
        · cases refused
        · split at refused
          · exact argument refused
          · cases refused
            exact ⟨rfl, id⟩

/-- However many calls are open, the fault that ends their reading is ahead. -/
theorem isAhead_of_run {cursor : Cursor} (refused : reading.run cursor = .error fault) :
    fault.IsAhead cursor := by
  fun_induction run reading cursor with
  | case1 reading cursor found after step =>
    cases refused
    exact Cursor.isAhead_of_readLexeme step
  | case2 reading cursor placed after step found misfit =>
    cases refused
    obtain ⟨position, finished⟩ := fault_of_step misfit
    exact Cursor.isAhead_of_start step position finished
  | case3 => cases refused
  | case4 reading cursor placed after step reading' moved ih =>
    exact (ih refused).of_reaches (Cursor.reaches_of_readLexeme step)

end Call.Reading

namespace Cursor

variable {cursor : Cursor} {fault : Fault}

theorem isAhead_of_readCall {start : Position} (refused : cursor.readCall start = .error fault) :
    fault.IsAhead cursor := Call.Reading.isAhead_of_run refused

theorem isAhead_of_readMustache (refused : cursor.readMustache = .error fault) :
    fault.IsAhead cursor := (isAhead_of_readCall refused).of_reaches (cursor.reaches_skip 2)

theorem isAhead_of_readPath (refused : cursor.readPath = .error fault) : fault.IsAhead cursor := by
  unfold readPath at refused
  split at refused
  · rename_i step
    cases refused
    exact isAhead_of_readLexeme step
  · rename_i step
    split at refused
    · cases refused
    · cases refused
      exact isAhead_of_start step rfl id

theorem isAhead_of_readClose (refused : cursor.readClose = .error fault) : fault.IsAhead cursor := by
  unfold readClose at refused
  split at refused
  · rename_i step
    cases refused
    exact isAhead_of_readLexeme step
  · rename_i step
    split at refused
    · cases refused
    · cases refused
      exact isAhead_of_start step rfl id

end Cursor

end LayoutMarkup
