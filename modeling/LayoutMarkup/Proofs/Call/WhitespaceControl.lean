import LayoutMarkup.Proofs.Call.Relocation
import LayoutMarkup.Proofs.Lexeme.Boundaries

/-! Calls and the signs of whitespace control. A `~` before the braces that end a call is part of the gap
in front of them, so that the same lexemes are read with it and without it. What a call is does not depend
on the places of its lexemes, and so it is the same call up to spans. -/

namespace LayoutMarkup

/-- A blank is no lexeme and begins none. -/
theorem Lexeme.read_of_blank {c : Char} (blank : Unicode.isBlank c = true) (tail : List Char) :
    read (c :: tail) = (.error (.unexpectedCharacter c), 0) := by
  have apart : isPathChar c = false := by
    rw [← Bool.not_eq_true]
    intro joined
    rw [not_blank_of_isPathChar joined] at blank
    cases blank
  have others : c ≠ '}' ∧ c ≠ '(' ∧ c ≠ ')' ∧ c ≠ '"' ∧ c ≠ '\'' := by
    refine ⟨?_, ?_, ?_, ?_, ?_⟩ <;> rintro rfl <;> exact absurd blank (by decide)
  obtain ⟨brace, opening, closing, double, single⟩ := others
  rw [read_of_not_isPathChar apart]
  simp [brace, opening, closing, double, single]

namespace Cursor

variable {cursor : Cursor} {tail : List Char}

/-- A `~` is a gap of its own. -/
theorem skipGap_of_sign (shape : cursor.rest = '~' :: tail) : cursor.skipGap = cursor.skip 1 := by
  have clear : Unicode.isBlank '~' = false := by decide
  have unmoved : cursor.skipBlank = cursor := by
    simp [skipBlank, skipRun, run, shape, clear, skip_zero]
  have sign : cursor.rest = ['~'] ++ tail := shape
  rw [skipGap_eq, unmoved, eat?_of_shape sign]
  rfl

/-- Behind a `~` a lexeme is read as though it stood alone. -/
theorem readLexeme_of_sign {c : Char} (shape : cursor.rest = '~' :: c :: tail)
    (clear : Unicode.isBlank c = false) (other : c ≠ '~') :
    cursor.readLexeme = (cursor.skip 1).readLexeme := by
  have behind : (cursor.skip 1).rest = c :: tail := by simp [skip, shape]
  have unmoved : (cursor.skip 1).skipBlank = cursor.skip 1 := by
    rw [skipBlank, skipRun, run, behind, List.takeWhile_cons_of_neg (by simp [clear])]
    exact skip_zero _
  have gapless : (cursor.skip 1).skipGap = cursor.skip 1 := by
    rw [skipGap_eq, unmoved, eat?, if_neg (by simp [sees, behind, List.isPrefixOf, Ne.symm other])]
    rfl
  simp only [readLexeme, skipGap_of_sign shape, gapless]

/-- A blank behind a `~` is taken for a lexeme. -/
theorem readLexeme_of_sign_blank {c : Char} (shape : cursor.rest = '~' :: c :: tail)
    (blank : Unicode.isBlank c = true) :
    cursor.readLexeme = (.error ((cursor.skip 1).fault (.unexpectedCharacter c)), cursor.skip 1) := by
  have behind : (cursor.skip 1).rest = c :: tail := by simp [skip, shape]
  simp only [readLexeme, skipGap_of_sign shape, behind, Lexeme.read_of_blank blank, skip_zero]

end Cursor

/-- The move that makes all places the same. -/
def Position.forget (_ : Position) : Position := .start

theorem Call.withoutSpans_eq_of_forget {first second : Call}
    (same : first.relocate Position.forget = second.relocate Position.forget) :
    first.withoutSpans = second.withoutSpans := by
  rw [← first.withoutSpans_relocate Position.forget, same, second.withoutSpans_relocate]

/-- What was read at another place was read at its own as well. -/
theorem ok_of_relocateResult {α β : Type} {move : Position → Position} {change : α → β}
    {result : Except Fault α} {value : β} (changed : relocateResult move change result = .ok value) :
    ∃ before, result = .ok before ∧ change before = value := by
  cases result with
  | error fault => cases changed
  | ok before => exact ⟨before, rfl, Except.ok.inj changed⟩

namespace Call.Reading

/-- Readings that differ in places alone. -/
def Alike (first second : Reading) : Prop :=
  first.relocate Position.forget = second.relocate Position.forget

variable {reading other : Reading} {placed : Placed} {call : Call} {cursor after : Cursor}

/-- Readings that are alike take a lexeme in the same manner, wherever it was read. -/
theorem Alike.step (alike : other.Alike reading) {next : Call ⊕ Reading}
    (moved : reading.step placed = .ok next) (span : Span) :
    ∃ peer, other.step ⟨placed.lexeme, span⟩ = .ok peer ∧
      peer.map (Call.relocate Position.forget) (relocate Position.forget) =
        next.map (Call.relocate Position.forget) (relocate Position.forget) := by
  have here := @step_relocate Position.forget reading placed
  have there := @step_relocate Position.forget other ⟨placed.lexeme, span⟩
  rw [moved] at here
  rw [alike] at there
  exact ok_of_relocateResult (there.symm.trans here)

/-- What is left before the end of a call ends with the braces of the call. -/
theorem exists_braces_of_run (found : reading.run cursor = .ok (call, after)) :
    ∃ text, cursor.rest = text ++ '}' :: '}' :: after.rest := by
  fun_induction run reading cursor with
  | case1 => cases found
  | case2 => cases found
  | case3 reading cursor placed next step call' finished =>
    cases found
    obtain ⟨gap, text, -, passed, -, -, closes⟩ := Cursor.passes_of_readLexeme step
    obtain rfl := closes (closes_of_step finished)
    exact ⟨gap, by simp [passed.rest]⟩
  | case4 reading cursor placed next step reading' moved ih =>
    obtain ⟨text, shape⟩ := ih found
    obtain ⟨passed, reached⟩ := Cursor.reaches_of_readLexeme step
    exact ⟨passed ++ text, by simp [reached.rest, shape]⟩

/-- A call goes on behind a `~` unless a blank stands there. -/
theorem run_skip_sign {c : Char} {tail : List Char} (shape : cursor.rest = '~' :: c :: tail)
    (clear : Unicode.isBlank c = false) (apart : c ≠ '~') :
    reading.run cursor = reading.run (cursor.skip 1) := by
  rw [run_eq reading cursor, run_eq reading (cursor.skip 1),
    Cursor.readLexeme_of_sign shape clear apart]

/-- The same call is read up to spans at another place, when its last braces get a sign and when something
else comes behind them. -/
theorem run_of_closing (alike : other.Alike reading) {front : Cursor} {body sign tail : List Char}
    (shape : cursor.rest = body ++ '}' :: '}' :: after.rest)
    (closed : front.rest = body ++ (sign ++ '}' :: '}' :: tail))
    (plain : sign = [] ∨ sign = ['~'] ∧ ¬ ['~'] <:+ body) (found : reading.run cursor = .ok (call, after)) :
    ∃ peer behind, other.run front = .ok (peer, behind) ∧ behind.rest = tail ∧
      peer.withoutSpans = call.withoutSpans := by
  fun_induction run reading cursor generalizing other front body with
  | case1 => cases found
  | case2 => cases found
  | case3 reading cursor placed next step call' finished =>
    cases found
    obtain ⟨gap, text, isGap, passed, -, -, closes⟩ := Cursor.passes_of_readLexeme step
    have ended := closes_of_step finished
    obtain rfl := closes ended
    -- the gap is the whole body, and with the sign it is a gap still
    obtain rfl : gap = body := by
      have whole := passed.rest
      rw [shape, List.append_assoc] at whole
      exact (List.append_cancel_right whole).symm
    have longer : IsGap (gap ++ sign) := by
      rcases plain with rfl | ⟨rfl, unsigned⟩
      · rwa [List.append_nil]
      · obtain ⟨blanks, sign, rfl, blank, rfl | rfl⟩ := isGap
        · exact ⟨blanks, ['~'], by simp, blank, .inr rfl⟩
        · exact absurd (List.suffix_append blanks ['~']) unsigned
    have split : front.rest = (gap ++ sign) ++ (['}', '}'] ++ tail) := by simp [closed]
    obtain ⟨span, behind, again, left⟩ :=
      Cursor.readLexeme_of_isGap longer split (Lexeme.read_close tail)
    obtain ⟨peer, ended', same⟩ := alike.step finished span
    rw [ended] at ended'
    cases peer with
    | inr waiting => cases same
    | inl peer =>
      exact ⟨peer, behind, run_of_close again ended', left, withoutSpans_eq_of_forget (Sum.inl.inj same)⟩
  | case4 reading cursor placed next step reading' moved ih =>
    obtain ⟨text, behind⟩ := exists_braces_of_run found
    obtain ⟨gap, word, whole, again⟩ := Cursor.readLexeme_of_append step (left_of_run found)
    obtain rfl : body = gap ++ (word ++ text) := by
      rw [shape, behind] at whole
      apply List.append_cancel_right
      simpa using whole
    have front' : front.rest = gap ++ (word ++ (text ++ (sign ++ '}' :: '}' :: tail))) := by simp [closed]
    have joins : (text ++ (sign ++ '}' :: '}' :: tail)).head? = next.rest.head? ∨
        Lexeme.EndsWord (text ++ (sign ++ '}' :: '}' :: tail)) := by
      cases text with
      | nil =>
        rcases plain with rfl | ⟨rfl, -⟩
        · exact .inl (by rw [behind]; rfl)
        · exact .inr (Lexeme.endsWord_sign _)
      | cons c text => exact .inl (by rw [behind]; rfl)
    obtain ⟨span, onward, stepped, left⟩ := again front _ front' joins
    obtain ⟨peer, went, same⟩ := alike.step moved span
    cases peer with
    | inl done => cases same
    | inr waiting =>
      have later : sign = [] ∨ sign = ['~'] ∧ ¬ ['~'] <:+ text :=
        plain.imp id (And.imp id fun unsigned last =>
          unsigned (last.trans ((List.suffix_append word text).trans (List.suffix_append gap _))))
      rw [run_of_step stepped went]
      exact ih (Sum.inr.inj same) behind left later found

/-- The same call is read up to spans when its last braces get a sign and places are others. -/
theorem run_of_sign (alike : other.Alike reading) {front : Cursor} {body : List Char}
    (shape : cursor.rest = body ++ ['}', '}']) (signed : front.rest = body ++ ['~', '}', '}'])
    (unsigned : ¬ ['~'] <:+ body) (found : reading.run cursor = .ok (call, after))
    (ended : after.rest = []) :
    ∃ peer behind, other.run front = .ok (peer, behind) ∧ behind.rest = [] ∧
      peer.withoutSpans = call.withoutSpans :=
  run_of_closing alike (ended ▸ shape) signed (.inr ⟨rfl, unsigned⟩) found

end Call.Reading

end LayoutMarkup
