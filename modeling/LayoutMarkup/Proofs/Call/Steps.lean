import LayoutMarkup.Call.Read

/-! What the next lexeme can do to the reading of a call. Every fact about calls that were read goes
through these five moves. -/

namespace LayoutMarkup

/-- What a successful computation gives after a change was given before it. -/
theorem Except.map_eq_ok {ε α β : Type} {change : α → β} {result : Except ε α} {value : β}
    (changed : result.map change = .ok value) : ∃ before, result = .ok before ∧ change before = value := by
  cases result with
  | error fault => cases changed
  | ok before => exact ⟨before, rfl, Except.ok.inj changed⟩

/-- A change keeps the failure of a computation. -/
theorem Except.map_eq_error {ε α β : Type} {change : α → β} {result : Except ε α} {fault : ε}
    (refused : result.map change = .error fault) : result = .error fault := by
  cases result with
  | error own => exact congrArg Except.error (Except.error.inj refused)
  | ok before => cases refused

namespace Call.Reading

/-- What one lexeme makes of a reading. -/
inductive Moves (placed : Placed) : Reading → Call ⊕ Reading → Prop where
  | callee {start : Position} {outer : List OpenCall} {word : String}
      (name : placed.lexeme = .path word) :
      Moves placed ⟨.callee start, outer⟩ (.inr ⟨.argument (.named ⟨word, placed.span⟩ start), outer⟩)
  | argument {call : OpenCall} {outer : List OpenCall} {taken : Reading}
      (free : call.key.isSome = true ∨ call.pairs.isEmpty = true)
      (took : takeArgument call outer placed = .ok taken) :
      Moves placed ⟨.argument call, outer⟩ (.inr taken)
  | key {call : OpenCall} {outer : List OpenCall} {word : String} (idle : call.key = none)
      (name : placed.lexeme = .key word) :
      Moves placed ⟨.argument call, outer⟩
        (.inr ⟨.argument { call with key := some (word, placed.span.start) }, outer⟩)
  | close {call : OpenCall} (idle : call.key = none) (ended : placed.lexeme = .close) :
      Moves placed ⟨.argument call, []⟩ (.inl (call.finish placed.span.stop))
  | closeParen {call parent : OpenCall} {outer : List OpenCall} (idle : call.key = none)
      (ended : placed.lexeme = .closeParen) :
      Moves placed ⟨.argument call, parent :: outer⟩
        (.inr ⟨.argument (parent.add (.call (call.finish placed.span.stop))), outer⟩)

/-- A step is one of the moves. -/
theorem moves_of_step {reading : Reading} {placed : Placed} {next : Call ⊕ Reading}
    (moved : reading.step placed = .ok next) : Moves placed reading next := by
  obtain ⟨expecting, outer⟩ := reading
  cases expecting with
  | callee start =>
    simp only [step] at moved
    split at moved
    · rename_i word name
      cases moved
      exact .callee name
    · cases moved
  | argument call =>
    simp only [step] at moved
    by_cases waiting : call.key.isSome = true
    · rw [if_pos waiting] at moved
      obtain ⟨taken, took, rfl⟩ := Except.map_eq_ok moved
      exact .argument (.inl waiting) took
    rw [if_neg waiting] at moved
    have idle : call.key = none := by simpa using waiting
    split at moved
    · rename_i ended
      cases outer with
      | nil =>
        cases moved
        exact .close idle ended
      | cons parent outer =>
        cases moved
        exact .closeParen idle ended
    · split at moved
      · rename_i word name
        cases moved
        exact .key idle name
      · split at moved
        · rename_i early
          obtain ⟨taken, took, rfl⟩ := Except.map_eq_ok moved
          exact .argument (.inr early) took
        · cases moved

variable {reading reading' : Reading} {cursor after : Cursor} {placed : Placed}

/-- A run, without what shows that it ends. -/
theorem run_eq (reading : Reading) (cursor : Cursor) : reading.run cursor =
    match cursor.readLexeme with
    | (.error fault, _) => .error fault
    | (.ok placed, after) =>
      match reading.step placed with
      | .error fault => .error fault
      | .ok (.inl call) => .ok (call, after)
      | .ok (.inr reading') => reading'.run after := by
  rw [run]
  obtain ⟨result, after⟩ := cursor.readLexeme
  cases result with
  | error fault => rfl
  | ok placed =>
    cases reading.step placed with
    | error fault => rfl
    | ok next => cases next <;> rfl

theorem run_of_step (found : cursor.readLexeme = (.ok placed, after))
    (moved : reading.step placed = .ok (.inr reading')) : reading.run cursor = reading'.run after := by
  rw [run_eq, found]
  simp only [moved]

theorem run_of_close {call : Call} (found : cursor.readLexeme = (.ok placed, after))
    (finished : reading.step placed = .ok (.inl call)) : reading.run cursor = .ok (call, after) := by
  rw [run_eq, found]
  simp only [finished]

end Call.Reading

namespace Cursor

variable {cursor after : Cursor}

/-- A path that was read on its own was the next lexeme. -/
theorem readLexeme_of_readPath {path : Path} (found : cursor.readPath = .ok (path, after)) :
    cursor.readLexeme = (.ok ⟨.path path.name, path.span⟩, after) := by
  unfold readPath at found
  split at found
  · cases found
  · rename_i placed behind step
    obtain ⟨lexeme, span⟩ := placed
    split at found
    · rename_i word name
      cases found
      rw [step, show lexeme = .path word from name]
    · cases found

/-- The end of a mustache that was read was the next lexeme. -/
theorem readLexeme_of_readClose (found : cursor.readClose = .ok after) :
    ∃ span, cursor.readLexeme = (.ok ⟨.close, span⟩, after) := by
  unfold readClose at found
  split at found
  · cases found
  · rename_i placed behind step
    obtain ⟨lexeme, span⟩ := placed
    split at found
    · rename_i ended
      cases found
      exact ⟨span, by rw [step, show lexeme = .close from ended]⟩
    · cases found

end Cursor

end LayoutMarkup
