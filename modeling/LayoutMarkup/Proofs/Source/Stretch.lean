import LayoutMarkup.Template.Read

/-! Stretches of text up to the first place where something else begins. Whether it begins there may
depend on the characters behind the stretch. -/

namespace LayoutMarkup

/-- The front of a text up to the first place where `stop` holds of the rest. -/
def stretch (stop : List Char → Bool) : List Char → List Char
  | [] => []
  | c :: rest => if stop (c :: rest) then [] else c :: stretch stop rest

theorem textStretch_eq_stretch (text : List Char) : textStretch text = stretch startsMarkup text := by
  induction text with
  | nil => rfl
  | cons c rest ih => simp [textStretch, stretch, ih]

theorem literalStretch_eq_stretch (quote : Char) (text : List Char) :
    literalStretch quote text =
      stretch (fun rest => rest.head? = some quote || startsMustache rest) text := by
  induction text with
  | nil => rfl
  | cons c rest ih => simp [literalStretch, stretch, ih]

variable {stop : List Char → Bool} {text tail : List Char}

/-- A text without a stop is the stretch before a stop. -/
theorem stretch_append (inside : ∀ rest, rest <:+ text → rest ≠ [] → stop (rest ++ tail) = false)
    (ended : tail = [] ∨ stop tail = true) : stretch stop (text ++ tail) = text := by
  induction text with
  | nil =>
    rcases ended with rfl | stops
    · rfl
    · cases tail with
      | nil => rfl
      | cons c rest => simp [stretch, stops]
  | cons c text ih =>
    have first := inside (c :: text) List.suffix_rfl (by simp)
    rw [List.cons_append] at first ⊢
    rw [stretch, first, if_neg (by simp)]
    rw [ih fun rest suffix => inside rest (suffix.trans (List.suffix_cons c text))]

/-- What a stretch leaves is nothing or a stop, and no stop is in it. -/
theorem stretch_spec (stop : List Char → Bool) (text : List Char) :
    ∃ tail, text = stretch stop text ++ tail ∧ (tail = [] ∨ stop tail = true) ∧
      ∀ rest, rest <:+ stretch stop text → rest ≠ [] → stop (rest ++ tail) = false := by
  induction text with
  | nil => exact ⟨[], rfl, .inl rfl, fun rest suffix filled => absurd (List.suffix_nil.mp suffix) filled⟩
  | cons c text ih =>
    by_cases stops : stop (c :: text) = true
    · refine ⟨c :: text, by simp [stretch, stops], .inr stops, ?_⟩
      intro rest suffix filled
      simp only [stretch, stops, if_true] at suffix
      exact absurd (List.suffix_nil.mp suffix) filled
    · obtain ⟨tail, shape, ended, inside⟩ := ih
      have whole : stretch stop (c :: text) = c :: stretch stop text := by simp [stretch, stops]
      refine ⟨tail, by rw [whole, List.cons_append, ← shape], ended, ?_⟩
      intro rest suffix filled
      rw [whole] at suffix
      rcases List.suffix_cons_iff.mp suffix with rfl | shorter
      · rw [List.cons_append, ← shape]
        simpa using stops
      · exact inside rest shorter filled

theorem stretch_eq_self (inside : ∀ rest, rest <:+ text → rest ≠ [] → stop rest = false) :
    stretch stop text = text := by
  have whole : stretch stop (text ++ []) = text := stretch_append (by simpa using inside) (.inl rfl)
  rwa [List.append_nil] at whole

theorem stop_of_stretch_eq_self (whole : stretch stop text = text) {rest : List Char}
    (suffix : rest <:+ text) (filled : rest ≠ []) : stop rest = false := by
  obtain ⟨tail, shape, -, inside⟩ := stretch_spec stop text
  rw [whole] at shape inside
  obtain rfl : tail = [] := by simpa using shape
  simpa using inside rest suffix filled

end LayoutMarkup
