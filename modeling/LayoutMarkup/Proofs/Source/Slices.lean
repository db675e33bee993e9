import LayoutMarkup.Source.Position

/-! Slices of a source. Places along a text come in their order, so that the span between two of them
names exactly one piece of the text. -/

namespace LayoutMarkup

namespace Position

/-- Whether a place comes earlier: on a line before, or further left on the same line. -/
def Before (first second : Position) : Prop :=
  first.line < second.line ∨ first.line = second.line ∧ first.column < second.column

instance (first second : Position) : Decidable (first.Before second) :=
  inferInstanceAs (Decidable (_ ∨ _ ∧ _))

variable {first second third : Position}

theorem not_before_self (position : Position) : ¬ position.Before position := by
  simp [Before]

theorem Before.trans (one : first.Before second) (two : second.Before third) : first.Before third := by
  unfold Before at *
  omega

theorem before_next (position : Position) (c : Char) : position.Before (position.next c) := by
  unfold next
  split <;> simp [Before]

/-- A text with a character in it ends later than it starts. -/
theorem before_after (position : Position) {text : List Char} (filled : text ≠ []) :
    position.Before (position.after text) := by
  induction text generalizing position with
  | nil => exact absurd rfl filled
  | cons c text ih =>
    have first := position.before_next c
    cases text with
    | nil => exact first
    | cons d text => exact first.trans (ih _ (List.cons_ne_nil d text))

end Position

namespace Span

/-- The characters of a text whose places lie within a span. -/
def sliceFrom (span : Span) : Position → List Char → List Char
  | _, [] => []
  | position, c :: rest =>
    if position.Before span.start ∨ ¬ position.Before span.stop then
      sliceFrom span (position.next c) rest
    else c :: sliceFrom span (position.next c) rest

/-- The piece of a source that a span names. -/
def slice (span : Span) (source : String) : List Char := span.sliceFrom .start source.toList

variable (span : Span)

theorem sliceFrom_append (position : Position) (first rest : List Char) :
    span.sliceFrom position (first ++ rest) =
      span.sliceFrom position first ++ span.sliceFrom (position.after first) rest := by
  induction first generalizing position with
  | nil => rfl
  | cons c first ih =>
    simp only [List.cons_append, sliceFrom, Position.after_cons, ih]
    split <;> rfl

/-- Of what ends by the start of a span nothing is in the span. -/
theorem sliceFrom_before {position : Position} {text : List Char}
    (early : span.start = position.after text) : span.sliceFrom position text = [] := by
  induction text generalizing position with
  | nil => rfl
  | cons c text ih =>
    have outside : position.Before span.start :=
      early ▸ position.before_after (List.cons_ne_nil c text)
    rw [sliceFrom, if_pos (.inl outside)]
    exact ih early

/-- Of what starts by the end of a span nothing is in the span. -/
theorem sliceFrom_behind {position : Position} {text : List Char}
    (late : ¬ position.Before span.stop) : span.sliceFrom position text = [] := by
  induction text generalizing position with
  | nil => rfl
  | cons c text ih =>
    rw [sliceFrom, if_pos (.inr late)]
    exact ih fun back => late ((position.before_next c).trans back)

/-- What starts no earlier and ends with a span is in it as a whole. -/
theorem sliceFrom_inside {position : Position} {text : List Char}
    (begun : ¬ position.Before span.start) (ended : span.stop = position.after text) :
    span.sliceFrom position text = text := by
  induction text generalizing position with
  | nil => rfl
  | cons c text ih =>
    have inside : position.Before span.stop :=
      ended ▸ position.before_after (List.cons_ne_nil c text)
    rw [sliceFrom, if_neg (by simp [begun, inside])]
    rw [ih (fun back => begun ((position.before_next c).trans back)) ended]

/-- The span of a piece of a source names that piece. -/
theorem slice_of_append {source : String} {before text behind : List Char}
    (shape : source.toList = before ++ text ++ behind)
    (start : span.start = Position.start.after before)
    (stop : span.stop = (Position.start.after before).after text) : span.slice source = text := by
  rw [slice, shape, sliceFrom_append, sliceFrom_append, span.sliceFrom_before start]
  have begun : ¬ (Position.start.after before).Before span.start := by
    rw [start]
    exact Position.not_before_self _
  have ended : ¬ (Position.start.after (before ++ text)).Before span.stop := by
    rw [stop, Position.after_append]
    exact Position.not_before_self _
  rw [span.sliceFrom_inside begun stop, span.sliceFrom_behind ended]
  simp

end Span

/-- A text that stands in a source behind a place. -/
def HoldsAt (source : String) (start : Position) (text : List Char) : Prop :=
  ∃ before behind, source.toList = before ++ text ++ behind ∧ start = Position.start.after before

namespace HoldsAt

variable {source : String} {start : Position} {text : List Char}

/-- The span of a text that stands in a source names it. -/
theorem slice (holds : HoldsAt source start text) :
    Span.slice ⟨start, start.after text⟩ source = text := by
  obtain ⟨before, behind, shape, rfl⟩ := holds
  exact Span.slice_of_append _ shape rfl rfl

theorem front {behind : List Char} (holds : HoldsAt source start (text ++ behind)) :
    HoldsAt source start text := by
  obtain ⟨above, below, shape, place⟩ := holds
  exact ⟨above, behind ++ below, by simp [shape], place⟩

/-- What stands behind a piece of text stands behind the place that the piece leads to. -/
theorem back {before : List Char} (holds : HoldsAt source start (before ++ text)) :
    HoldsAt source (start.after before) text := by
  obtain ⟨above, below, shape, rfl⟩ := holds
  exact ⟨above ++ before, below, by simp [shape], (Position.after_append _ _ _).symm⟩

end HoldsAt

end LayoutMarkup
