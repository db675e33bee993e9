import LayoutMarkup.Lexeme.Read

/-! Blank characters are neither letters nor numerals, so that they always end a name. -/

namespace LayoutMarkup

/-- What is said of the characters of a text is decided on these, not on every character there is. -/
instance decidableForallMem {P : Char → Prop} [DecidablePred P] (text : List Char) :
    Decidable (∀ c ∈ text, P c) :=
  List.decidableBAll P text

namespace Unicode

/-- Whether no code point lies in ranges of both lists. -/
def rangesApart (first second : List Range) : Bool :=
  first.all fun one => second.all fun other => one.2 < other.1 || other.2 < one.1

theorem inRanges_of_apart {first second : List Range} (apart : rangesApart first second = true)
    {code : Nat} (member : inRanges first code = true) : inRanges second code = false := by
  obtain ⟨one, listed, within⟩ := List.any_eq_true.mp member
  apply List.any_eq_false.mpr
  intro other present
  have gap := List.all_eq_true.mp (List.all_eq_true.mp apart one listed) other present
  simp only [Bool.or_eq_true, decide_eq_true_eq, Bool.and_eq_true] at gap within ⊢
  omega

theorem isAlpha_eq_inRanges (c : Char) :
    c.isAlpha = inRanges [(0x41, 0x5A), (0x61, 0x7A)] c.toNat := by
  delta Char.isAlpha Char.isUpper Char.isLower
  simp [inRanges, UInt32.le_iff_toNat_le]

theorem isDigit_eq_inRanges (c : Char) : c.isDigit = inRanges [(0x30, 0x39)] c.toNat := by
  rw [Bool.eq_iff_iff, Char.isDigit_iff_toNat]
  simp [inRanges]

theorem isAlphabetic_of_blank {c : Char} (blank : isBlank c = true) : isAlphabetic c = false := by
  unfold isAlphabetic
  split
  · have apart : rangesApart blankRanges [(0x41, 0x5A), (0x61, 0x7A)] = true := by decide
    rw [isAlpha_eq_inRanges]
    exact inRanges_of_apart apart blank
  · have apart : rangesApart blankRanges alphabeticRanges = true := by decide +kernel
    exact inRanges_of_apart apart blank

theorem isNumeric_of_blank {c : Char} (blank : isBlank c = true) : isNumeric c = false := by
  unfold isNumeric
  split
  · have apart : rangesApart blankRanges [(0x30, 0x39)] = true := by decide
    rw [isDigit_eq_inRanges]
    exact inRanges_of_apart apart blank
  · have apart : rangesApart blankRanges numericRanges = true := by decide +kernel
    exact inRanges_of_apart apart blank

end Unicode

theorem not_blank_of_isPathChar {c : Char} (member : isPathChar c = true) :
    Unicode.isBlank c = false := by
  rw [← Bool.not_eq_true]
  intro blank
  have sign : ['_', '-', '.', '/', '@', ':', '$'].contains c = true := by
    simpa [isPathChar, Unicode.isAlphanumeric, Unicode.isAlphabetic_of_blank blank,
      Unicode.isNumeric_of_blank blank] using member
  simp only [List.contains_iff_mem, List.mem_cons, List.not_mem_nil, or_false] at sign
  rcases sign with rfl | rfl | rfl | rfl | rfl | rfl | rfl <;> exact absurd blank (by decide)

end LayoutMarkup
