import LayoutMarkup.Proofs.Unicode.Blank
import Mathlib.Data.List.TakeWhile

/-! What a move of a cursor leaves, when it is known how the rest begins; and how the first
occurrence of a terminator carries over to another text that ends with it. -/

namespace LayoutMarkup

theorem takeWhile_append_stop {member : Char → Bool} {text tail : List Char}
    (inside : ∀ c ∈ text, member c = true) (outside : ∀ c ∈ tail.head?, member c = false) :
    (text ++ tail).takeWhile member = text := by
  rw [List.takeWhile_append_of_pos inside]
  cases tail with
  | nil => simp
  | cons c rest => simp [outside c (by simp)]

/-- A text is cut in one way only at the last place of a character. -/
theorem append_cons_inj_last {c : Char} {first second before behind : List Char} (one : c ∉ before)
    (two : c ∉ behind) (same : first ++ c :: before = second ++ c :: behind) :
    first = second ∧ before = behind := by
  have last (front text : List Char) (absent : c ∉ text) :
      (front ++ c :: text).reverse.takeWhile (· ≠ c) = text.reverse := by
    rw [List.reverse_append, List.reverse_cons, List.append_assoc]
    apply takeWhile_append_stop
    · intro d member
      rw [decide_eq_true_eq]
      rintro rfl
      exact absent (List.mem_reverse.mp member)
    · rintro _ ⟨⟩
      simp
  obtain rfl : before = behind := by
    rw [← List.reverse_inj, ← last first before one, same, last second behind two]
  exact ⟨List.append_cancel_right same, rfl⟩

theorem firstOccurrence_self (pattern tail : List Char) :
    firstOccurrence pattern (pattern ++ tail) = some 0 := by
  cases text : pattern ++ tail with
  | nil => simp_all [firstOccurrence]
  | cons c rest =>
    have front : pattern.isPrefixOf (c :: rest) = true := by
      rw [← text, List.isPrefixOf_iff_prefix]
      exact List.prefix_append pattern tail
    simp [firstOccurrence, front]

/-- A pattern stands where it was found. -/
theorem prefix_of_firstOccurrence {pattern text : List Char} {count : Nat}
    (found : firstOccurrence pattern text = some count) : pattern <+: text.drop count := by
  induction text generalizing count with
  | nil =>
    simp only [firstOccurrence, List.isEmpty_iff] at found
    split at found
    · simp_all
    · cases found
  | cons c text ih =>
    simp only [firstOccurrence] at found
    split at found
    · cases found
      exact List.isPrefixOf_iff_prefix.mp ‹_›
    · obtain ⟨count, inner, rfl⟩ := Option.map_eq_some_iff.mp found
      exact ih inner

theorem firstOccurrence_le {pattern text : List Char} {count : Nat}
    (found : firstOccurrence pattern text = some count) : count ≤ text.length := by
  induction text generalizing count with
  | nil =>
    simp only [firstOccurrence, List.isEmpty_iff] at found
    split at found
    · cases found
      exact Nat.le_refl 0
    · cases found
  | cons c text ih =>
    simp only [firstOccurrence] at found
    split at found
    · cases found
      exact Nat.zero_le _
    · obtain ⟨count, inner, rfl⟩ := Option.map_eq_some_iff.mp found
      exact Nat.succ_le_succ (ih inner)

/-- A pattern is found no later than any place where it stands. -/
theorem firstOccurrence_le_of_prefix {pattern text : List Char} (front : pattern <+: text)
    (before : List Char) :
    ∃ count, firstOccurrence pattern (before ++ text) = some count ∧ count ≤ before.length := by
  induction before with
  | nil =>
    obtain ⟨tail, rfl⟩ := front
    exact ⟨0, firstOccurrence_self pattern tail, Nat.le_refl 0⟩
  | cons c before ih =>
    obtain ⟨count, found, bound⟩ := ih
    rw [List.cons_append, firstOccurrence]
    split
    · exact ⟨0, rfl, Nat.zero_le _⟩
    · exact ⟨count + 1, by rw [found, Option.map_some], Nat.succ_le_succ bound⟩

/-- What stands before the first occurrence of a pattern stands before it in every text that begins
with both. -/
theorem firstOccurrence_take {pattern text : List Char} {count : Nat}
    (found : firstOccurrence pattern text = some count) (tail : List Char) :
    firstOccurrence pattern (text.take count ++ (pattern ++ tail)) = some count := by
  induction text generalizing count with
  | nil =>
    have none := prefix_of_firstOccurrence found
    simp only [List.drop_nil, List.prefix_nil] at none
    simp only [firstOccurrence, none] at found
    cases found
    simpa using firstOccurrence_self pattern tail
  | cons c text ih =>
    simp only [firstOccurrence] at found
    split at found
    · cases found
      simpa using firstOccurrence_self pattern tail
    · rename_i later
      obtain ⟨count, inner, rfl⟩ := Option.map_eq_some_iff.mp found
      have front : pattern.isPrefixOf (c :: (text.take count ++ (pattern ++ tail))) = false := by
        rw [← Bool.not_eq_true]
        intro early
        apply later
        rw [List.isPrefixOf_iff_prefix] at early ⊢
        obtain ⟨behind, rest⟩ := prefix_of_firstOccurrence inner
        have whole : c :: text = (c :: (text.take count ++ pattern)) ++ behind := by
          rw [List.cons_append, List.append_assoc, rest, List.take_append_drop]
        rw [whole]
        have within : pattern <+: c :: (text.take count ++ pattern) := by
          refine List.prefix_of_prefix_length_le early ?_ (by simp; omega)
          exact ⟨tail, by simp⟩
        exact within.trans (List.prefix_append _ _)
      simp [firstOccurrence, front, ih inner]

namespace Cursor

variable {cursor : Cursor} {text tail : List Char}

theorem rest_skip (shape : cursor.rest = text ++ tail) : (cursor.skip text.length).rest = tail := by
  simp [skip, shape]

theorem sees_iff : cursor.sees text = true ↔ text <+: cursor.rest := List.isPrefixOf_iff_prefix

theorem eat?_eq_none_iff : cursor.eat? text = none ↔ ¬ text <+: cursor.rest := by
  simp [eat?, ← sees_iff]

theorem eat?_of_shape (shape : cursor.rest = text ++ tail) :
    cursor.eat? text = some (cursor.skip text.length) := by
  have seen : cursor.sees text = true := sees_iff.mpr ⟨tail, shape.symm⟩
  simp [eat?, seen]

theorem run_of_shape {member : Char → Bool} (shape : cursor.rest = text ++ tail)
    (inside : ∀ c ∈ text, member c = true) (outside : ∀ c ∈ tail.head?, member c = false) :
    cursor.run member = text := by
  rw [run, shape, takeWhile_append_stop inside outside]

theorem rest_skipBlank (shape : cursor.rest = text ++ tail)
    (inside : ∀ c ∈ text, Unicode.isBlank c = true)
    (outside : ∀ c ∈ tail.head?, Unicode.isBlank c = false) : cursor.skipBlank.rest = tail := by
  rw [skipBlank, skipRun, run_of_shape shape inside outside]
  exact rest_skip shape

theorem rest_skipBlank_cons {c : Char} (shape : cursor.rest = c :: tail)
    (clear : Unicode.isBlank c = false) : cursor.skipBlank.rest = c :: tail := by
  have whole : cursor.rest = [] ++ c :: tail := shape
  apply rest_skipBlank whole (by simp)
  intro d first
  cases first
  exact clear

theorem rest_skipBlank_space {c : Char} (shape : cursor.rest = ' ' :: c :: tail)
    (clear : Unicode.isBlank c = false) : cursor.skipBlank.rest = c :: tail := by
  have whole : cursor.rest = [' '] ++ c :: tail := shape
  apply rest_skipBlank whole (by decide)
  intro d first
  cases first
  exact clear

/-- Blanks without a `~` behind them are a whole gap. -/
theorem rest_skipGap (shape : cursor.rest = text ++ tail)
    (inside : ∀ c ∈ text, Unicode.isBlank c = true)
    (outside : ∀ c ∈ tail.head?, Unicode.isBlank c = false ∧ c ≠ '~') :
    cursor.skipGap.rest = tail := by
  have blank := rest_skipBlank shape inside fun c first => (outside c first).1
  have unseen : cursor.skipBlank.sees ['~'] = false := by
    rw [← Bool.not_eq_true, sees_iff, blank]
    rintro ⟨behind, rfl⟩
    exact (outside '~' rfl).2 rfl
  simp [skipGap, eat?, unseen, blank]

theorem pastTerminator?_of_shape {terminator : List Char}
    (shape : cursor.rest = text ++ (terminator ++ tail))
    (found : firstOccurrence terminator (text ++ (terminator ++ tail)) = some text.length) :
    ∃ after, cursor.pastTerminator? terminator = some (text, after) ∧ after.rest = tail := by
  refine ⟨cursor.skip (text.length + terminator.length), ?_, ?_⟩
  · simp [pastTerminator?, shape, found]
  · rw [← List.length_append]
    exact rest_skip (by simp [shape])

end Cursor

end LayoutMarkup
