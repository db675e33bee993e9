import LayoutMarkup.Proofs.Source.Cursor

/-! The text that a cursor passes. Whatever reads from a cursor passes a piece of text: what was left
is that piece and what is left now, and the place reached is the place behind the piece. -/

namespace LayoutMarkup

/-- Blanks, and behind them at most one `~`: what may stand before a lexeme of a mustache. -/
def IsGap (text : List Char) : Prop :=
  ∃ blanks sign, text = blanks ++ sign ∧ (∀ c ∈ blanks, Unicode.isBlank c = true) ∧
    (sign = [] ∨ sign = ['~'])

namespace Cursor

/-- One cursor becomes another by moving over a text. -/
structure Passes (cursor : Cursor) (text : List Char) (after : Cursor) : Prop where
  rest : cursor.rest = text ++ after.rest
  position : after.position = cursor.position.after text

variable {cursor middle after : Cursor} {first second text : List Char}

namespace Passes

theorem refl (cursor : Cursor) : cursor.Passes [] cursor := ⟨rfl, rfl⟩

theorem trans (one : cursor.Passes first middle) (two : middle.Passes second after) :
    cursor.Passes (first ++ second) after where
  rest := by rw [one.rest, two.rest, List.append_assoc]
  position := by rw [two.position, one.position, Position.after_append]

end Passes

theorem passes_skip (cursor : Cursor) (count : Nat) :
    cursor.Passes (cursor.rest.take count) (cursor.skip count) :=
  ⟨(List.take_append_drop count cursor.rest).symm, rfl⟩

theorem passes_of_prefix (front : text <+: cursor.rest) :
    cursor.Passes text (cursor.skip text.length) := by
  have passed := cursor.passes_skip text.length
  rwa [← List.prefix_iff_eq_take.mp front] at passed

theorem passes_run (cursor : Cursor) (member : Char → Bool) :
    cursor.Passes (cursor.run member) (cursor.skipRun member) :=
  passes_of_prefix (List.takeWhile_prefix member)

theorem passes_of_eat? (eaten : cursor.eat? text = some after) : cursor.Passes text after := by
  obtain ⟨seen, rfl⟩ := eat?_eq_some eaten
  exact passes_of_prefix (sees_iff.mp seen)

theorem exists_passes_skipBlank (cursor : Cursor) :
    ∃ blanks, (∀ c ∈ blanks, Unicode.isBlank c = true) ∧ cursor.Passes blanks cursor.skipBlank :=
  ⟨_, fun _ member => List.mem_takeWhile_imp member, cursor.passes_run Unicode.isBlank⟩

theorem exists_passes_skipGap (cursor : Cursor) :
    ∃ gap, IsGap gap ∧ cursor.Passes gap cursor.skipGap := by
  obtain ⟨blanks, blank, passed⟩ := cursor.exists_passes_skipBlank
  unfold skipGap
  cases eaten : cursor.skipBlank.eat? ['~'] with
  | none =>
    refine ⟨blanks, ⟨blanks, [], by simp, blank, .inl rfl⟩, ?_⟩
    simpa [eaten] using passed
  | some after =>
    refine ⟨blanks ++ ['~'], ⟨blanks, ['~'], rfl, blank, .inr rfl⟩, ?_⟩
    simpa [eaten] using passed.trans (passes_of_eat? eaten)

theorem passes_of_pastTerminator? {terminator value : List Char}
    (found : cursor.pastTerminator? terminator = some (value, after)) :
    cursor.Passes (value ++ terminator) after := by
  simp only [pastTerminator?, Option.map_eq_some_iff, Prod.mk.injEq] at found
  obtain ⟨count, occurs, rfl, rfl⟩ := found
  obtain ⟨tail, shape⟩ := prefix_of_firstOccurrence occurs
  have bound := firstOccurrence_le occurs
  have front : cursor.rest.take count ++ terminator <+: cursor.rest := by
    refine ⟨tail, ?_⟩
    rw [List.append_assoc, shape, List.take_append_drop]
  have length : (cursor.rest.take count ++ terminator).length = count + terminator.length := by
    rw [List.length_append, List.length_take, Nat.min_eq_left bound]
  rw [← length]
  exact passes_of_prefix front

/-- One cursor becomes another by moving over some text. -/
def Reaches (cursor after : Cursor) : Prop := ∃ text, cursor.Passes text after

theorem Reaches.trans (one : cursor.Reaches middle) (two : middle.Reaches after) :
    cursor.Reaches after :=
  let ⟨_, passed⟩ := one
  let ⟨_, passed'⟩ := two
  ⟨_, passed.trans passed'⟩

theorem reaches_skip (cursor : Cursor) (count : Nat) : cursor.Reaches (cursor.skip count) :=
  ⟨_, cursor.passes_skip count⟩

end Cursor

end LayoutMarkup
