import LayoutMarkup.Proofs.Call.Steps
import LayoutMarkup.Proofs.Source.Passes

/-! How far lexemes and calls reach. A call ends where the cursor stands behind it, however many calls
were open meanwhile, and a name that stands alone in a mustache is read to its last character. -/

namespace LayoutMarkup

def Part.span : Part → Span
  | .text literal => literal.span
  | .mustache call => call.span

theorem Lexeme.toList_of_ofWord {chars : List Char} {word : String}
    (found : ofWord chars = .path word) : chars = word.toList := by
  unfold ofWord at found
  split at found
  · cases found
  · split at found
    · cases found
    · cases found
      exact String.toList_ofList.symm

theorem Lexeme.ofWord_ne_close (chars : List Char) : ofWord chars ≠ .close := by
  unfold ofWord
  split
  · simp
  · split <;> simp

/-- What is read as a name or as the end of a mustache is just that. -/
theorem Lexeme.take_of_read {text : List Char} {lexeme : Lexeme} {count : Nat}
    (found : read text = (.ok lexeme, count)) :
    (∀ word, lexeme = .path word → text.take count = word.toList) ∧
      (lexeme = .close → text.take count = ['}', '}']) := by
  unfold read at found
  split at found
  · simp at found
  · rename_i c rest
    dsimp only at found
    repeat' split at found
    all_goals simp only [Prod.mk.injEq, reduceCtorEq, Except.ok.injEq, false_and] at found
    all_goals obtain ⟨rfl, rfl⟩ := found
    · rename_i closes
      simp only [Bool.and_eq_true, decide_eq_true_eq, List.head?_eq_some_iff] at closes
      obtain ⟨rfl, behind, rfl⟩ := closes
      simp
    · simp
    · simp
    · simp
    · simp
    · simp
    · have word : (c :: rest).take ((c :: rest).takeWhile isPathChar).length =
          (c :: rest).takeWhile isPathChar :=
        (List.prefix_iff_eq_take.mp (List.takeWhile_prefix _)).symm
      rw [word]
      exact ⟨fun _ => toList_of_ofWord, fun closed => absurd closed (ofWord_ne_close _)⟩

namespace Cursor

variable {cursor after : Cursor}

/-- A lexeme passes a gap and its own text. -/
theorem passes_of_readLexeme {placed : Placed} (found : cursor.readLexeme = (.ok placed, after)) :
    ∃ gap text, IsGap gap ∧ cursor.Passes (gap ++ text) after ∧ placed.span.stop = after.position ∧
      (∀ word, placed.lexeme = .path word → text = word.toList) ∧
      (placed.lexeme = .close → text = ['}', '}']) := by
  obtain ⟨gap, isGap, front⟩ := cursor.exists_passes_skipGap
  simp only [readLexeme] at found
  split at found
  · rename_i lexeme count read
    cases found
    obtain ⟨word, close⟩ := Lexeme.take_of_read read
    exact ⟨gap, _, isGap, front.trans (passes_skip _ count), rfl, word, close⟩
  · simp at found

theorem reaches_of_readLexeme {placed : Placed} (found : cursor.readLexeme = (.ok placed, after)) :
    cursor.Reaches after :=
  let ⟨_, _, _, passed, _⟩ := passes_of_readLexeme found
  ⟨_, passed⟩

theorem passes_of_readPath {path : Path} (found : cursor.readPath = .ok (path, after)) :
    ∃ gap, IsGap gap ∧ cursor.Passes (gap ++ path.name.toList) after := by
  obtain ⟨gap, text, isGap, passed, -, word, -⟩ := passes_of_readLexeme (readLexeme_of_readPath found)
  obtain rfl := word path.name rfl
  exact ⟨gap, isGap, passed⟩

theorem passes_of_readClose (found : cursor.readClose = .ok after) :
    ∃ gap, IsGap gap ∧ cursor.Passes (gap ++ ['}', '}']) after := by
  obtain ⟨span, step⟩ := readLexeme_of_readClose found
  obtain ⟨gap, text, isGap, passed, -, -, close⟩ := passes_of_readLexeme step
  obtain rfl := close rfl
  exact ⟨gap, isGap, passed⟩

end Cursor

namespace Call

/-- Where the current call starts. -/
def Expecting.start : Expecting → Position
  | .callee start => start
  | .argument call => call.start

namespace Reading

/-- Where the outermost of a call and the calls around it starts. -/
def outermost (start : Position) : List OpenCall → Position
  | [] => start
  | call :: outer => outermost call.start outer

def outermostStart (reading : Reading) : Position := outermost reading.expecting.start reading.outer

theorem start_add (call : OpenCall) (value : Expression) : (call.add value).start = call.start := by
  unfold OpenCall.add
  split <;> rfl

theorem outermostStart_of_takeArgument {call : OpenCall} {outer : List OpenCall} {placed : Placed}
    {taken : Reading} (took : takeArgument call outer placed = .ok taken) :
    taken.outermostStart = outermostStart ⟨.argument call, outer⟩ := by
  unfold takeArgument at took
  split at took
  · cases took
    rfl
  · split at took
    · cases took
      simp [outermostStart, Expecting.start, start_add]
    · cases took

variable {placed : Placed} {reading : Reading}

/-- No move changes where the outermost call starts. -/
theorem outermostStart_of_moves {next : Reading} (moves : Moves placed reading (.inr next)) :
    next.outermostStart = reading.outermostStart := by
  cases moves with
  | callee name => rfl
  | argument free took => exact outermostStart_of_takeArgument took
  | key idle name => rfl
  | closeParen idle ended => simp [outermostStart, outermost, Expecting.start, start_add]

theorem span_of_moves {call : Call} (moves : Moves placed reading (.inl call)) :
    call.span = ⟨reading.outermostStart, placed.span.stop⟩ := by
  cases moves
  rfl

theorem span_of_run {cursor after : Cursor} {call : Call}
    (found : reading.run cursor = .ok (call, after)) :
    cursor.Reaches after ∧ call.span = ⟨reading.outermostStart, after.position⟩ := by
  fun_induction run reading cursor with
  | case1 => cases found
  | case2 => cases found
  | case3 reading cursor placed next step call' finished =>
    cases found
    obtain ⟨gap, text, -, passed, stop, -⟩ := Cursor.passes_of_readLexeme step
    exact ⟨⟨_, passed⟩, stop ▸ span_of_moves (moves_of_step finished)⟩
  | case4 reading cursor placed next step reading' moved ih =>
    obtain ⟨reached, span⟩ := ih found
    exact ⟨(Cursor.reaches_of_readLexeme step).trans reached,
      outermostStart_of_moves (moves_of_step moved) ▸ span⟩

end Reading

end Call

namespace Cursor

variable {cursor after : Cursor} {call : Call}

theorem span_of_readCall {start : Position} (found : cursor.readCall start = .ok (call, after)) :
    cursor.Reaches after ∧ call.span = ⟨start, after.position⟩ := Call.Reading.span_of_run found

theorem span_of_readMustache (found : cursor.readMustache = .ok (call, after)) :
    cursor.Reaches after ∧ call.span = ⟨cursor.position, after.position⟩ := by
  obtain ⟨reached, span⟩ := span_of_readCall found
  exact ⟨(cursor.reaches_skip 2).trans reached, span⟩

end Cursor

end LayoutMarkup
