import LayoutMarkup.Lexeme.Move
import LayoutMarkup.Proofs.Source.Places

/-! What the moves of a cursor do, told without the cursor's own functions. Every move passes a piece
of text, and wherever a row of moves has led, the cursor stands at a place of the source. -/

namespace LayoutMarkup.Cursor

/-- The blanks that come next are passed, all of them. -/
structure PassesBlanks (cursor : Cursor) (blanks : List Char) (after : Cursor) : Prop where
  passes : cursor.Passes blanks after
  inside : ∀ c ∈ blanks, Unicode.isBlank c = true
  outside : ∀ c ∈ after.rest.head?, Unicode.isBlank c = false

/-- What a move answers, which text it passes and where it leaves the cursor. -/
inductive Does (cursor : Cursor) : Move → Answer → List Char → Cursor → Prop
  | advance {c : Char} {after : Cursor} (passes : cursor.Passes [c] after) :
      Does cursor .advance (.char (some c)) [c] after
  | advanceAtEnd (ended : cursor.rest = []) : Does cursor .advance (.char none) [] cursor
  | eat {text : List Char} {after : Cursor} (passes : cursor.Passes text after) :
      Does cursor (.eat text) (.flag true) text after
  | eatOther {text : List Char} (absent : ¬ text <+: cursor.rest) :
      Does cursor (.eat text) (.flag false) [] cursor
  | expect {text : List Char} {after : Cursor} (passes : cursor.Passes text after) :
      Does cursor (.expect text) .nothing text after
  | expectOther {text : List Char} (absent : ¬ text <+: cursor.rest) :
      Does cursor (.expect text) (.fault (cursor.fault (.expectedText text))) [] cursor
  | skipBlank {blanks : List Char} {after : Cursor} (passes : cursor.PassesBlanks blanks after) :
      Does cursor .skipBlank .nothing blanks after
  | takeWhile {member : Char → Bool} {run : List Char} {after : Cursor}
      (passes : cursor.Passes run after) (inside : ∀ c ∈ run, member c = true)
      (outside : ∀ c ∈ after.rest.head?, member c = false) :
      Does cursor (.takeWhile member) (.text run) run after
  | takeUntil {terminator before : List Char} {after : Cursor}
      (passes : cursor.Passes (before ++ terminator) after)
      (first : ∀ other, other ++ terminator <+: cursor.rest → before.length ≤ other.length) :
      Does cursor (.takeUntil terminator) (.text before) (before ++ terminator) after
  | takeUntilNone {terminator : List Char} (absent : ¬ terminator <:+: cursor.rest) :
      Does cursor (.takeUntil terminator) (.fault (cursor.fault (.missingTerminator terminator))) []
        cursor
  | seeClose {blanks : List Char} {after : Cursor} {holds : Bool}
      (passes : cursor.PassesBlanks blanks after)
      (told : holds = true ↔ ['}', '}'] <+: after.rest ∨ ['~', '}', '}'] <+: after.rest) :
      Does cursor .seeClose (.flag holds) blanks after
  | readLexeme {gap text : List Char} {front after : Cursor} {placed : Placed} (isGap : IsGap gap)
      (skips : cursor.Passes gap front) (passes : front.Passes text after)
      (span : placed.span = ⟨front.position, after.position⟩) :
      Does cursor .readLexeme (.lexeme placed) (gap ++ text) after
  | readNoLexeme {gap text : List Char} {front after : Cursor} {fault : Fault} (isGap : IsGap gap)
      (skips : cursor.Passes gap front) (passes : front.Passes text after)
      (position : fault.position = after.position) :
      Does cursor .readLexeme (.fault fault) (gap ++ text) after

variable {cursor after : Cursor} {move : Move} {answer : Answer} {text : List Char}

theorem Does.passes (done : cursor.Does move answer text after) : cursor.Passes text after := by
  cases done with
  | advance passes => exact passes
  | advanceAtEnd ended => exact .refl cursor
  | eat passes => exact passes
  | eatOther absent => exact .refl cursor
  | expect passes => exact passes
  | expectOther absent => exact .refl cursor
  | skipBlank passes => exact passes.passes
  | takeWhile passes inside outside => exact passes
  | takeUntil passes first => exact passes
  | takeUntilNone absent => exact .refl cursor
  | seeClose passes told => exact passes.passes
  | readLexeme isGap skips passes span => exact skips.trans passes
  | readNoLexeme isGap skips passes position => exact skips.trans passes

theorem head_skipRun (cursor : Cursor) (member : Char → Bool) :
    ∀ c ∈ (cursor.skipRun member).rest.head?, member c = false := by
  have whole : cursor.rest = cursor.run member ++ cursor.rest.dropWhile member :=
    List.takeWhile_append_dropWhile.symm
  have outside := List.head?_dropWhile_not member cursor.rest
  intro c first
  rw [skipRun, rest_skip whole] at first
  simpa [Option.mem_def.mp first] using outside

theorem passesBlanks_skipBlank (cursor : Cursor) :
    cursor.PassesBlanks (cursor.run Unicode.isBlank) cursor.skipBlank where
  passes := cursor.passes_run Unicode.isBlank
  inside _ := List.mem_takeWhile_imp
  outside := cursor.head_skipRun Unicode.isBlank

section

variable {terminator before : List Char}

/-- The text in front of a terminator is found no longer than need be. -/
theorem length_le_of_pastTerminator? (found : cursor.pastTerminator? terminator = some (before, after))
    {other : List Char} (occurs : other ++ terminator <+: cursor.rest) :
    before.length ≤ other.length := by
  simp only [pastTerminator?, Option.map_eq_some_iff, Prod.mk.injEq] at found
  obtain ⟨count, first, rfl, -⟩ := found
  obtain ⟨tail, whole⟩ := occurs
  obtain ⟨own, here, bound⟩ :=
    firstOccurrence_le_of_prefix (List.prefix_append terminator tail) other
  rw [← List.append_assoc, whole, first] at here
  cases here
  exact (List.length_take_le _ _).trans bound

theorem not_infix_of_pastTerminator? (missing : cursor.pastTerminator? terminator = none) :
    ¬ terminator <:+: cursor.rest := by
  rintro ⟨other, tail, whole⟩
  obtain ⟨count, found, -⟩ :=
    firstOccurrence_le_of_prefix (List.prefix_append terminator tail) other
  rw [← List.append_assoc, whole] at found
  simp [pastTerminator?, found] at missing

end

theorem does_advance (cursor : Cursor) :
    ∃ text, cursor.Does .advance (.char cursor.peek?) text cursor.advance := by
  rw [peek?, advance]
  cases left : cursor.rest with
  | nil =>
    have stays : cursor.skip 1 = cursor := by
      cases cursor
      cases left
      rfl
    rw [stays]
    exact ⟨[], .advanceAtEnd left⟩
  | cons c rest =>
    have passes := cursor.passes_skip 1
    rw [left] at passes
    exact ⟨[c], .advance passes⟩

theorem does_eat (cursor : Cursor) (text : List Char) :
    ∃ passed, cursor.Does (.eat text) (.flag (cursor.sees text)) passed
      ((cursor.eat? text).getD cursor) := by
  cases eaten : cursor.eat? text with
  | some after =>
    rw [(eat?_eq_some eaten).1]
    exact ⟨text, .eat (passes_of_eat? eaten)⟩
  | none =>
    have absent := eat?_eq_none_iff.mp eaten
    have unseen : cursor.sees text = false := by
      rw [← Bool.not_eq_true, sees_iff]
      exact absent
    rw [unseen]
    exact ⟨[], .eatOther absent⟩

theorem does_readLexeme (cursor : Cursor) :
    ∃ text, cursor.Does .readLexeme (cursor.perform .readLexeme).1 text
      (cursor.perform .readLexeme).2 := by
  obtain ⟨gap, isGap, skips⟩ := cursor.exists_passes_skipGap
  rcases read : Lexeme.read cursor.skipGap.rest with ⟨result, count⟩
  have passes := cursor.skipGap.passes_skip count
  simp only [perform, Cursor.readLexeme, read]
  cases result with
  | ok lexeme => exact ⟨_, .readLexeme isGap skips passes rfl⟩
  | error cause => exact ⟨_, .readNoLexeme isGap skips passes rfl⟩

/-- Every move does what its name says. -/
theorem does_perform (cursor : Cursor) (move : Move) :
    ∃ text, cursor.Does move (cursor.perform move).1 text (cursor.perform move).2 := by
  cases move with
  | advance => exact cursor.does_advance
  | eat text => exact cursor.does_eat text
  | expect text =>
    simp only [perform]
    cases eaten : cursor.eat? text with
    | some after => exact ⟨text, .expect (passes_of_eat? eaten)⟩
    | none => exact ⟨[], .expectOther (eat?_eq_none_iff.mp eaten)⟩
  | skipBlank => exact ⟨_, .skipBlank cursor.passesBlanks_skipBlank⟩
  | takeWhile member =>
    exact ⟨_, .takeWhile (cursor.passes_run member) (fun _ => List.mem_takeWhile_imp)
      (cursor.head_skipRun member)⟩
  | takeUntil terminator =>
    simp only [perform]
    cases found : cursor.pastTerminator? terminator with
    | some result =>
      exact ⟨_, .takeUntil (passes_of_pastTerminator? found)
        fun _ => length_le_of_pastTerminator? found⟩
    | none => exact ⟨[], .takeUntilNone (not_infix_of_pastTerminator? found)⟩
  | seeClose =>
    refine ⟨_, .seeClose cursor.passesBlanks_skipBlank ?_⟩
    rw [perform, seesClose, Bool.or_eq_true, sees_iff, sees_iff]
  | readLexeme => exact cursor.does_readLexeme

theorem reaches_performAll (cursor : Cursor) (moves : List Move) :
    cursor.Reaches (cursor.performAll moves) := by
  induction moves generalizing cursor with
  | nil => exact ⟨[], .refl cursor⟩
  | cons move moves ih =>
    obtain ⟨text, done⟩ := cursor.does_perform move
    have first : cursor.Reaches (cursor.perform move).2 := ⟨text, done.passes⟩
    exact first.trans (ih _)

/-- Whatever moves, failing ones included, a cursor has made since the start of a source, it stands at a
place of the source, and its line and column are those of the place. The next move leads to the same
place or a later one, does what its name says, and what it passes is what the source has between both. -/
theorem standsAt_of_moves (source : String) (moves : List Move) (move : Move) :
    let cursor := (ofString source).performAll moves
    let done := cursor.perform move
    ∃ (place later : source.Pos) (ordered : place ≤ later) (text : List Char),
      cursor.StandsAt place ∧ done.2.StandsAt later ∧
        (source.slice place later ordered).copy = String.ofList text ∧
        cursor.Does move done.1 text done.2 := by
  intro cursor done
  obtain ⟨consumed, passed⟩ := (ofString source).reaches_performAll moves
  obtain ⟨text, does⟩ := cursor.does_perform move
  obtain ⟨place, later, ordered, here, there, slice⟩ := exists_slice_of_passes passed does.passes
  exact ⟨place, later, ordered, text, here, there, slice, does⟩

end LayoutMarkup.Cursor
