import LayoutMarkup.Layout.ClassNames
import LayoutMarkup.Proofs.Lexeme.NumberText

/-! Names that end with a number. The scheme that is used unless a project brings its own puts a hyphen and
a number at the end of the names for columns and offsets. What stands before may have hyphens as well, but
digits have none, so that the last hyphen tells the two apart. A column can be named like an offset only
where the name of its breakpoint begins like that of an offset. -/

namespace LayoutMarkup

/-- The digits of a number tell the number. -/
theorem toDigits_injective : Function.Injective (Nat.toDigits 10) := by
  intro first second same
  rw [← digitsValue_toDigits first, same, digitsValue_toDigits]

theorem hyphen_not_mem_toDigits (number : Nat) : '-' ∉ Nat.toDigits 10 number := by
  intro member
  have digit := Nat.isDigit_of_mem_toDigits (by decide) (by decide) member
  exact absurd digit (by decide)

/-- A name with a number behind its last hyphen tells the number and what stands before the hyphen. -/
theorem numbered_inj {front back : String} {first second : Nat} :
    front ++ "-" ++ toString first = back ++ "-" ++ toString second ↔
      front = back ∧ first = second := by
  constructor
  · intro same
    have texts : front.toList ++ '-' :: Nat.toDigits 10 first =
        back.toList ++ '-' :: Nat.toDigits 10 second := by
      simpa using congrArg String.toList same
    obtain ⟨fronts, digits⟩ := append_cons_inj_last (hyphen_not_mem_toDigits first)
      (hyphen_not_mem_toDigits second) texts
    exact ⟨String.toList_inj.mp fronts, toDigits_injective digits⟩
  · rintro ⟨rfl, rfl⟩
    rfl

namespace ClassNames

section

variable (lead : Option String) (one two : Breakpoint) (first second total total' : Nat)

theorem defaultColumn_inj :
    defaultColumn one first lead total = defaultColumn two second lead total' ↔
      one.short = two.short ∧ first = second := by
  rw [defaultColumn, defaultColumn, numbered_inj, String.append_right_inj]

theorem defaultOffset_inj :
    defaultOffset one first lead total = defaultOffset two second lead total' ↔
      one.short = two.short ∧ first = second := by
  rw [defaultOffset, defaultOffset, numbered_inj, String.append_right_inj]

theorem defaultColumn_eq_defaultOffset_iff :
    defaultColumn one first lead total = defaultOffset two second lead total' ↔
      first = second ∧ one.short = "offset-" ++ two.short := by
  rw [defaultColumn, defaultOffset, numbered_inj, String.append_assoc, String.append_right_inj, and_comm]

end

/-- With one column prefix, or none, no two columns share a default name and no two offsets do, whatever
the breakpoints are called; a column has the name of an offset exactly when the numbers are the same and
`offset-` stands before the name of the breakpoint of the offset in that of the column. -/
theorem default_names_are_unambiguous (lead : Option String) (one two : Breakpoint)
    (first second total total' : Nat) :
    (defaultColumn one first lead total = defaultColumn two second lead total' ↔
      one.short = two.short ∧ first = second) ∧
    (defaultOffset one first lead total = defaultOffset two second lead total' ↔
      one.short = two.short ∧ first = second) ∧
    (defaultColumn one first lead total = defaultOffset two second lead total' ↔
      first = second ∧ one.short = "offset-" ++ two.short) :=
  ⟨defaultColumn_inj lead one two first second total total',
    defaultOffset_inj lead one two first second total total',
    defaultColumn_eq_defaultOffset_iff lead one two first second total total'⟩

example : defaultColumn ⟨"offset-sm", none, none⟩ 3 (some "col") 12 =
    defaultOffset ⟨"sm", none, none⟩ 3 (some "col") 12 := rfl

end ClassNames

end LayoutMarkup
