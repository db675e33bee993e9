import LayoutMarkup.Fault
import LayoutMarkup.Proofs.Source.Order

/-! Source text that begins at another place. What is read of it is the same, with every place moved; so
are the faults found in it. -/

namespace LayoutMarkup

namespace Position

/-- A move of places that takes the steps along a text with it. -/
def Carries (move : Position → Position) : Prop :=
  ∀ position c, start.UpTo position → move (position.next c) = (move position).next c

theorem upTo_next (position : Position) (c : Char) : position.UpTo (position.next c) :=
  position.upTo_after [c]

theorem Carries.after {move : Position → Position} (carries : Carries move) {position : Position}
    (begun : start.UpTo position) (text : List Char) :
    move (position.after text) = (move position).after text := by
  induction text generalizing position with
  | nil => rfl
  | cons c text ih =>
    rw [after_cons, after_cons, ih (begun.trans (position.upTo_next c)), carries position c begun]

/-- Where a place of a text stands when the text begins at some base and not at the start. -/
def behind (base position : Position) : Position :=
  if position.line = 1 then ⟨base.line, base.column + position.column⟩
  else ⟨base.line + (position.line - 1), position.column⟩

theorem behind_start (base : Position) : base.behind start = base := rfl

theorem carries_behind (base : Position) : Carries base.behind := by
  intro position c begun
  have positive := line_pos begun
  unfold behind next
  by_cases feed : c = '\n' <;> by_cases first : position.line = 1
  · simp [feed, first]
  · have later : position.line + 1 ≠ 1 := by omega
    simp only [feed, first, later, if_true, if_false, Position.mk.injEq, and_true]
    omega
  · simp [feed, first, Nat.add_assoc]
  · simp [feed, first]

end Position

def Span.relocate (move : Position → Position) (span : Span) : Span := ⟨move span.start, move span.stop⟩

def Fault.relocate (move : Position → Position) (fault : Fault) : Fault :=
  ⟨fault.cause, move fault.position⟩

/-- What was read, changed, or the same fault at another place. -/
def relocateResult {α β : Type} (move : Position → Position) (change : α → β) :
    Except Fault α → Except Fault β
  | .ok value => .ok (change value)
  | .error fault => .error (fault.relocate move)

namespace Cursor

/-- A cursor before the same text at another place. -/
def relocate (move : Position → Position) (cursor : Cursor) : Cursor :=
  ⟨cursor.rest, move cursor.position⟩

variable {move : Position → Position} {cursor : Cursor}

@[simp] theorem rest_relocate : (cursor.relocate move).rest = cursor.rest := rfl

@[simp] theorem position_relocate : (cursor.relocate move).position = move cursor.position := rfl

@[simp] theorem peek?_relocate : (cursor.relocate move).peek? = cursor.peek? := rfl

@[simp] theorem atEnd_relocate : (cursor.relocate move).atEnd = cursor.atEnd := rfl

@[simp] theorem sees_relocate (text : List Char) :
    (cursor.relocate move).sees text = cursor.sees text := rfl

@[simp] theorem run_relocate (member : Char → Bool) :
    (cursor.relocate move).run member = cursor.run member := rfl

section

variable (carries : Position.Carries move) (begun : Position.start.UpTo cursor.position)

include carries begun

theorem skip_relocate (count : Nat) :
    (cursor.relocate move).skip count = (cursor.skip count).relocate move := by
  simp only [skip, relocate, carries.after begun]

theorem skipRun_relocate (member : Char → Bool) :
    (cursor.relocate move).skipRun member = (cursor.skipRun member).relocate move :=
  skip_relocate carries begun (cursor.run member).length

theorem skipBlank_relocate : (cursor.relocate move).skipBlank = cursor.skipBlank.relocate move :=
  skipRun_relocate carries begun Unicode.isBlank

theorem eat?_relocate (text : List Char) :
    (cursor.relocate move).eat? text = (cursor.eat? text).map (relocate move) := by
  unfold eat?
  rw [skip_relocate carries begun, sees_relocate]
  split <;> rfl

theorem skipGap_relocate : (cursor.relocate move).skipGap = cursor.skipGap.relocate move := by
  have blank : Position.start.UpTo cursor.skipBlank.position :=
    begun.trans (cursor.reaches_skip _).upTo
  rw [skipGap, skipGap, skipBlank_relocate carries begun, eat?_relocate carries blank]
  cases cursor.skipBlank.eat? ['~'] <;> rfl

theorem pastTerminator?_relocate (terminator : List Char) :
    (cursor.relocate move).pastTerminator? terminator =
      (cursor.pastTerminator? terminator).map (Prod.map id (relocate move)) := by
  unfold pastTerminator?
  rw [Option.map_map]
  congr 1
  funext count
  simp only [Function.comp_apply, Prod.map, skip_relocate carries begun]
  rfl

end

end Cursor

end LayoutMarkup
