import LayoutMarkup.Proofs.Call.FaultPlaces

/-! Loops over a cursor, told turn by turn. If a turn that goes on passes some text, whatever the state of
the loop is, then the loop ends: it takes no more turns than characters are left, and one. The reading of a
call is such a loop. -/

namespace LayoutMarkup

/-- What one turn of a loop comes to. -/
inductive Turn (σ α : Type) where
  | fails (fault : Fault)
  | ends (value : α) (after : Cursor)
  | goesOn (state : σ) (after : Cursor)

/-- A loop with a state, told by its turns. -/
abbrev Loop (σ α : Type) := σ → Cursor → Turn σ α

/-- A reader that never goes back. It leaves the cursor where it has come to, and complains about nothing
but what it comes to. -/
def Cursor.GoesForward {α : Type} (reader : Cursor → Except Fault (α × Cursor)) : Prop :=
  ∀ cursor, (∀ value after, reader cursor = .ok (value, after) → cursor.Reaches after) ∧
    ∀ fault, reader cursor = .error fault → fault.IsAhead cursor

variable {σ α : Type}

namespace Turn

/-- A turn that makes progress: if the loop goes on, then behind some text. -/
inductive IsOnward (cursor : Cursor) : Turn σ α → Prop
  | fails {fault : Fault} (ahead : fault.IsAhead cursor) : IsOnward cursor (.fails fault)
  | ends {value : α} {after : Cursor} (reached : cursor.Reaches after) : IsOnward cursor (.ends value after)
  | goesOn {state : σ} {text : List Char} {after : Cursor} (passed : cursor.Passes text after)
      (filled : text ≠ []) : IsOnward cursor (.goesOn state after)

/-- What comes of a turn, given what comes of going on. -/
def resolve (turn : Turn σ α) (next : σ → Cursor → Except Fault (α × Cursor)) :
    Except Fault (α × Cursor) :=
  match turn with
  | .fails fault => .error fault
  | .ends value after => .ok (value, after)
  | .goesOn state after => next state after

theorem isOnward_of_lt {cursor after : Cursor} (reached : cursor.Reaches after)
    (shorter : after.rest.length < cursor.rest.length) (state : σ) :
    IsOnward cursor (.goesOn state after : Turn σ α) := by
  obtain ⟨text, passed⟩ := reached
  refine .goesOn passed ?_
  rintro rfl
  rw [passed.rest, List.nil_append] at shorter
  exact Nat.lt_irrefl _ shorter

end Turn

namespace Loop

/-- What a loop comes to, if it ends within a number of turns. -/
def run (loop : Loop σ α) : Nat → σ → Cursor → Option (Except Fault (α × Cursor))
  | 0, _, _ => none
  | turns + 1, state, cursor =>
    match loop state cursor with
    | .fails fault => some (.error fault)
    | .ends value after => some (.ok (value, after))
    | .goesOn state after => run loop turns state after

/-- A row of turns that go on, and how many they are. -/
inductive Turns (loop : Loop σ α) : Nat → σ → Cursor → σ → Cursor → Prop
  | none (state : σ) (cursor : Cursor) : Turns loop 0 state cursor state cursor
  | more {count : Nat} {state state' state'' : σ} {cursor middle after : Cursor}
      (turned : loop state cursor = .goesOn state' middle)
      (others : Turns loop count state' middle state'' after) :
      Turns loop (count + 1) state cursor state'' after

/-- A loop whose turns make progress and that comes to what a reader gives. Whatever the state, a row of
turns passes a character for each of them or more; and from its first state the loop ends within one turn
more than characters are left. -/
structure Makes (loop : Loop σ α) (first : Cursor → σ) (reader : Cursor → Except Fault (α × Cursor)) :
    Prop where
  onward : ∀ state cursor, (loop state cursor).IsOnward cursor
  rows : ∀ count state cursor state' after, loop.Turns count state cursor state' after →
    ∃ text, cursor.Passes text after ∧ count ≤ text.length
  ends : ∀ cursor, loop.run (cursor.rest.length + 1) (first cursor) cursor = some (reader cursor)

/-- What a turn adds to a measure of the state it pays for with as many characters. -/
def Pays (loop : Loop σ α) (measure : σ → Nat) : Prop :=
  ∀ state cursor state' after, loop state cursor = .goesOn state' after →
    measure state' + after.rest.length ≤ measure state + cursor.rest.length

variable {loop : Loop σ α} {first : Cursor → σ} {reader : Cursor → Except Fault (α × Cursor)}

theorem length_lt_of_goesOn {state state' : σ} {cursor after : Cursor}
    (onward : ∀ state cursor, (loop state cursor).IsOnward cursor)
    (turned : loop state cursor = .goesOn state' after) : after.rest.length < cursor.rest.length := by
  have here := onward state cursor
  rw [turned] at here
  cases here with
  | goesOn passed filled =>
    rw [passed.rest, List.length_append]
    exact Nat.lt_add_of_pos_left (List.length_pos_iff.mpr filled)

theorem passes_of_turns {count : Nat} {state state' : σ} {cursor after : Cursor}
    (onward : ∀ state cursor, (loop state cursor).IsOnward cursor)
    (turns : loop.Turns count state cursor state' after) :
    ∃ text, cursor.Passes text after ∧ count ≤ text.length := by
  induction turns with
  | none state cursor => exact ⟨[], .refl cursor, Nat.le_refl 0⟩
  | @more count state state' state'' cursor middle after turned others ih =>
    have here := onward state cursor
    rw [turned] at here
    obtain ⟨text, behind, bound⟩ := ih
    cases here with
    | @goesOn _ front _ passed filled =>
      refine ⟨front ++ text, passed.trans behind, ?_⟩
      have positive := List.length_pos_iff.mpr filled
      rw [List.length_append]
      omega

/-- A turn that adds one at most has paid for it. -/
theorem pays_of_le {measure : σ → Nat} (onward : ∀ state cursor, (loop state cursor).IsOnward cursor)
    (bound : ∀ state cursor state' after, loop state cursor = .goesOn state' after →
      measure state' ≤ measure state + 1) : loop.Pays measure := by
  intro state cursor state' after turned
  have added := bound state cursor state' after turned
  have shorter := length_lt_of_goesOn onward turned
  omega

/-- A loop comes to what each of its turns comes to, and ends, as every turn leaves fewer characters. -/
theorem run_eq {reader : σ → Cursor → Except Fault (α × Cursor)}
    (onward : ∀ state cursor, (loop state cursor).IsOnward cursor)
    (turn : ∀ state cursor, reader state cursor = (loop state cursor).resolve reader) {turns : Nat}
    {state : σ} {cursor : Cursor} (enough : cursor.rest.length < turns) :
    loop.run turns state cursor = some (reader state cursor) := by
  induction turns generalizing state cursor with
  | zero => cases enough
  | succ turns ih =>
    rw [run, turn]
    cases turned : loop state cursor with
    | fails fault => rfl
    | ends value after => rfl
    | goesOn state' after =>
      have shorter := length_lt_of_goesOn onward turned
      exact ih (by omega)

theorem makes_of_turn {reader : σ → Cursor → Except Fault (α × Cursor)}
    (onward : ∀ state cursor, (loop state cursor).IsOnward cursor)
    (turn : ∀ state cursor, reader state cursor = (loop state cursor).resolve reader)
    (first : Cursor → σ) : loop.Makes first fun cursor => reader (first cursor) cursor :=
  ⟨onward, fun _ _ _ _ _ => passes_of_turns onward, fun _ => run_eq onward turn (Nat.lt_succ_self _)⟩

/-- What a number of turns comes to is no further back than where they began. -/
theorem forward_of_run {turns : Nat} {state : σ} {cursor : Cursor} {result : Except Fault (α × Cursor)}
    (onward : ∀ state cursor, (loop state cursor).IsOnward cursor)
    (ran : loop.run turns state cursor = some result) :
    (∀ value after, result = .ok (value, after) → cursor.Reaches after) ∧
      ∀ fault, result = .error fault → fault.IsAhead cursor := by
  induction turns generalizing state cursor with
  | zero => cases ran
  | succ turns ih =>
    have here := onward state cursor
    rw [run] at ran
    cases turned : loop state cursor with
    | fails fault =>
      rw [turned] at here ran
      cases ran
      cases here with
      | fails ahead => exact ⟨by rintro _ _ ⟨⟩, by rintro _ ⟨⟩; exact ahead⟩
    | ends value after =>
      rw [turned] at here ran
      cases ran
      cases here with
      | ends reached => exact ⟨by rintro _ _ ⟨⟩; exact reached, by rintro _ ⟨⟩⟩
    | goesOn state' after =>
      rw [turned] at here ran
      cases here with
      | goesOn passed filled =>
        obtain ⟨reached, ahead⟩ := ih ran
        exact ⟨fun value last done => Cursor.Reaches.trans ⟨_, passed⟩ (reached value last done),
          fun fault failed => (ahead fault failed).of_reaches ⟨_, passed⟩⟩

theorem Makes.goesForward (makes : loop.Makes first reader) : Cursor.GoesForward reader :=
  fun cursor => forward_of_run makes.onward (makes.ends cursor)

end Loop

namespace Call.Reading

/-- The reading of the arguments of a call and of the calls in it, one lexeme a turn. -/
def argumentsLoop : Loop Reading Call := fun reading cursor =>
  match cursor.readLexeme with
  | (.error fault, _) => .fails fault
  | (.ok placed, after) =>
    match reading.step placed with
    | .error fault => .fails fault
    | .ok (.inl call) => .ends call after
    | .ok (.inr reading') => .goesOn reading' after

variable {reading reading' : Reading} {cursor after : Cursor}

theorem isOnward_argumentsLoop (reading : Reading) (cursor : Cursor) :
    (argumentsLoop reading cursor).IsOnward cursor := by
  unfold argumentsLoop
  split
  · rename_i fault after refused
    exact .fails (Cursor.isAhead_of_readLexeme refused)
  · rename_i placed after found
    have reached := Cursor.reaches_of_readLexeme found
    split
    · rename_i fault refused
      obtain ⟨position, finished⟩ := fault_of_step refused
      exact .fails (Cursor.isAhead_of_start found position finished)
    · exact .ends reached
    · exact Turn.isOnward_of_lt reached (Cursor.length_of_readLexeme found) _

theorem run_eq_resolve (reading : Reading) (cursor : Cursor) :
    reading.run cursor = (argumentsLoop reading cursor).resolve run := by
  rw [run_eq, argumentsLoop]
  obtain ⟨result, after⟩ := cursor.readLexeme
  cases result with
  | error fault => rfl
  | ok placed =>
    cases moved : reading.step placed with
    | error fault => simp only [moved, Turn.resolve]
    | ok next => cases next <;> simp only [moved, Turn.resolve]

theorem makes_argumentsLoop (reading : Reading) : argumentsLoop.Makes (fun _ => reading) reading.run :=
  Loop.makes_of_turn isOnward_argumentsLoop run_eq_resolve fun _ => reading

/-- A lexeme opens one call at most. -/
theorem length_outer_of_step {placed : Placed} (moved : reading.step placed = .ok (.inr reading')) :
    reading'.outer.length ≤ reading.outer.length + 1 := by
  cases moves_of_step moved with
  | callee name => exact Nat.le_succ _
  | argument free took =>
    unfold takeArgument at took
    split at took
    · cases took
      exact Nat.le_refl _
    · split at took
      · cases took
        exact Nat.le_succ _
      · cases took
  | key idle name => exact Nat.le_succ _
  | closeParen idle ended => exact Nat.le_add_right_of_le (Nat.le_succ _)

/-- No call is opened without a character that is passed. -/
theorem pays_argumentsLoop : argumentsLoop.Pays fun reading => reading.outer.length := by
  apply Loop.pays_of_le isOnward_argumentsLoop
  intro reading cursor reading' after turned
  unfold argumentsLoop at turned
  split at turned
  · cases turned
  · split at turned
    · cases turned
    · cases turned
    · rename_i moved
      cases turned
      exact length_outer_of_step moved

end Call.Reading

end LayoutMarkup
