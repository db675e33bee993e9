import LayoutMarkup.Proofs.Source.Passes
import LayoutMarkup.Proofs.Source.Slices

/-! Spans in order. Between two places spans stand one after the other, each of them with its start no
later than its end. Parts of a list that is in order are in order, and so are lists put together. -/

namespace LayoutMarkup

namespace Position

/-- Whether a place comes no later than another. -/
def UpTo (first second : Position) : Prop := ¬ second.Before first

instance (first second : Position) : Decidable (first.UpTo second) :=
  inferInstanceAs (Decidable (¬ _))

variable {first second third : Position}

theorem upTo_refl (position : Position) : position.UpTo position := position.not_before_self

theorem UpTo.trans (one : first.UpTo second) (two : second.UpTo third) : first.UpTo third := by
  unfold UpTo Before at *
  omega

theorem Before.upTo (one : first.Before second) : first.UpTo second :=
  fun back => first.not_before_self (one.trans back)

theorem Before.trans_upTo (one : first.Before second) (two : second.UpTo third) :
    first.Before third := by
  unfold UpTo Before at *
  omega

theorem upTo_after (position : Position) (text : List Char) : position.UpTo (position.after text) := by
  by_cases filled : text = []
  · subst filled
    exact position.upTo_refl
  · intro back
    exact position.not_before_self ((position.before_after filled).trans back)

/-- The places of a source are on lines that count from one. -/
theorem line_pos {position : Position} (begun : start.UpTo position) : 0 < position.line := by
  unfold UpTo Before start at begun
  simp only at begun
  omega

end Position

theorem Cursor.Reaches.upTo {cursor after : Cursor} (reached : cursor.Reaches after) :
    cursor.position.UpTo after.position := by
  obtain ⟨text, passed⟩ := reached
  rw [passed.position]
  exact Position.upTo_after _ text

/-- A span that starts no later than it ends. -/
def Span.IsOrdered (span : Span) : Prop := span.start.UpTo span.stop

/-- Spans that stand one after the other between two places. -/
def InOrder : Position → List Span → Position → Prop
  | first, [], last => first.UpTo last
  | first, span :: rest, last => first.UpTo span.start ∧ span.IsOrdered ∧ InOrder span.stop rest last

namespace InOrder

variable {first middle last : Position} {spans others : List Span} {span : Span}

theorem upTo (ordered : InOrder first spans last) : first.UpTo last := by
  induction spans generalizing first with
  | nil => exact ordered
  | cons span rest ih => exact ordered.1.trans (ordered.2.1.trans (ih ordered.2.2))

theorem of_earlier {before : Position} (earlier : before.UpTo first) (ordered : InOrder first spans last) :
    InOrder before spans last := by
  cases spans with
  | nil => exact earlier.trans ordered
  | cons span rest => exact ⟨earlier.trans ordered.1, ordered.2⟩

theorem append (one : InOrder first spans middle) (two : InOrder middle others last) :
    InOrder first (spans ++ others) last := by
  induction spans generalizing first with
  | nil => exact of_earlier one two
  | cons span rest ih => exact ⟨one.1, one.2.1, ih one.2.2⟩

theorem of_later (ordered : InOrder first spans middle) (later : middle.UpTo last) :
    InOrder first spans last := by
  have whole : InOrder first (spans ++ []) last := ordered.append later
  rwa [List.append_nil] at whole

/-- One more span behind others. -/
theorem concat (ordered : InOrder first spans middle) (behind : middle.UpTo span.start)
    (own : span.IsOrdered) : InOrder first (spans ++ [span]) span.stop :=
  ordered.append ⟨behind, own, span.stop.upTo_refl⟩

/-- The span from one place to the other. -/
theorem whole (moved : first.UpTo last) : InOrder first [⟨first, last⟩] last :=
  ⟨first.upTo_refl, moved, last.upTo_refl⟩

/-- Each of the spans lies between the two places. -/
theorem of_mem (ordered : InOrder first spans last) (member : span ∈ spans) :
    first.UpTo span.start ∧ span.IsOrdered ∧ span.stop.UpTo last := by
  induction spans generalizing first with
  | nil => cases member
  | cons other rest ih =>
    obtain ⟨begins, own, behind⟩ := ordered
    rcases List.mem_cons.mp member with rfl | later
    · exact ⟨begins, own, behind.upTo⟩
    · obtain ⟨start, inside, stop⟩ := ih behind later
      exact ⟨begins.trans (own.trans start), inside, stop⟩

/-- Without some of the spans the others are still in order. -/
theorem sublist (fewer : others.Sublist spans) (ordered : InOrder first spans last) :
    InOrder first others last := by
  induction fewer generalizing first with
  | slnil => exact ordered
  | cons span _ ih => exact ih (of_earlier (ordered.1.trans ordered.2.1) ordered.2.2)
  | cons_cons span _ ih => exact ⟨ordered.1, ordered.2.1, ih ordered.2.2⟩

/-- From the start of the first span to the end of the last is an ordered span. -/
theorem isOrdered_around (ordered : InOrder first spans last) {one two : Span}
    (head : spans.head? = some one) (final : spans.getLast? = some two) :
    Span.IsOrdered ⟨one.start, two.stop⟩ := by
  obtain ⟨rest, rfl⟩ := List.head?_eq_some_iff.mp head
  have within : InOrder one.start (one :: rest) last := ⟨one.start.upTo_refl, ordered.2⟩
  obtain ⟨begins, own, -⟩ := within.of_mem (List.mem_of_getLast? final)
  exact begins.trans own

/-- Places that a map keeps in their order leave the spans between them in order. -/
theorem map {move : Position → Position}
    (monotone : ∀ one two : Position, one.UpTo two → (move one).UpTo (move two))
    (ordered : InOrder first spans last) :
    InOrder (move first) (spans.map fun span => ⟨move span.start, move span.stop⟩) (move last) := by
  induction spans generalizing first with
  | nil => exact monotone _ _ ordered
  | cons span rest ih =>
    obtain ⟨begins, own, behind⟩ := ordered
    exact ⟨monotone _ _ begins, monotone _ _ own, ih behind⟩

end InOrder

/-- Spans that fill the stretch between two places one after the other, none of them an empty one. -/
def Adjoin : Position → List Span → Position → Prop
  | first, [], last => first = last
  | first, span :: rest, last =>
    span.start = first ∧ span.start.Before span.stop ∧ Adjoin span.stop rest last

end LayoutMarkup
