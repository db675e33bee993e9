import LayoutMarkup.Call.Print
import LayoutMarkup.Proofs.Layout.TokenGrammar
import LayoutMarkup.Proofs.Lexeme.NumberText

/-! Whole numbers as arguments. A number may be a whole number of any size, but its text goes by way of
a signed word; so the text denotes the number exactly if the word can hold it, and what is read back is
the number as far as the words reach. -/

namespace LayoutMarkup

/-- A word spells one integer at most. -/
theorem Spells.unique {word : List Char} {first second : Int} (one : Spells word first)
    (other : Spells word second) : first = second := by
  cases one with
  | plain numeral =>
    cases other with
    | plain => rfl
    | plus => exact absurd rfl numeral.head.2
    | minus => exact absurd rfl numeral.head.1
  | plus numeral =>
    cases other with
    | plain other => exact absurd rfl other.head.2
    | plus => rfl
  | minus numeral =>
    cases other with
    | plain other => exact absurd rfl other.head.1
    | minus => rfl

theorem isNumeral_toDigits (number : Nat) : IsNumeral (Nat.toDigits 10 number) where
  filled := Nat.toDigits_ne_nil
  decimal _ member := Nat.isDigit_of_mem_toDigits (by decide) (by decide) member

/-- An integer in decimal digits is spelled by them. -/
theorem spells_toString (value : Int) : Spells (toString value).toList value := by
  have digits : ∀ number, (numeralValue (Nat.toDigits 10 number) : Int) = number := by
    intro number
    rw [← digitsValue_eq, digitsValue_toDigits]
  cases value with
  | ofNat number =>
    have spelled := Spells.plain (isNumeral_toDigits number)
    rw [digits] at spelled
    simpa [Int.toString_eq_repr, Int.repr] using spelled
  | negSucc number =>
    have spelled := Spells.minus (isNumeral_toDigits (number + 1))
    rw [digits] at spelled
    have text : (toString (Int.negSucc number)).toList = '-' :: Nat.toDigits 10 (number + 1) := by
      simp [Int.toString_eq_repr, Int.repr]
    rwa [text]

namespace Binary64

variable {number again : Binary64} {value : Int}

/-- Only zero, which has a sign, stands for an integer in two ways. -/
theorem eq_of_integer? (whole : number.integer? = some value) (same : again.integer? = some value)
    (filled : value ≠ 0) : again = number := by
  obtain ⟨numeral, -, sign, -, fraction⟩ := exists_numeral_of_integer value
  rw [← value_of_integer? same filled sign fraction, value_of_integer? whole filled sign fraction]

/-- How a whole number is written as an argument, and what is read from this. -/
structure IntegerText (number : Binary64) (value : Int) : Prop where
  /-- The text is a decimal numeral for the nearest integer that a signed word holds. -/
  spells : ∀ span, Spells (Expression.number number span).write (clampToWord value)
  /-- It denotes the number itself if a signed word holds this, and only then. -/
  exact : ∀ span,
    Spells (Expression.number number span).write value ↔ wordLow ≤ value ∧ value ≤ wordHigh
  /-- The text is read back as one number, the nearest to the number between the least word and the
  power of two behind the greatest: rounding makes up for one that is missing there. -/
  reread : ∃ again : Binary64, again.integer? = some (max wordLow (min value (wordHigh + 1))) ∧
    (value ≠ 0 → (again = number ↔ wordLow ≤ value ∧ value ≤ wordHigh + 1)) ∧
    ∀ (span : Span) (cursor : Cursor) (tail : List Char), Lexeme.EndsWord tail →
      cursor.rest = (Expression.number number span).write ++ tail →
      ∃ span after, cursor.readLexeme = (.ok ⟨.number again, span⟩, after) ∧ after.rest = tail

theorem spells_argumentText (whole : number.integer? = some value) :
    Spells number.argumentText (clampToWord value) := by
  simpa only [argumentText, whole] using spells_toString (clampToWord value)

/-- A whole number of any size is written as the nearest integer that a signed word holds, so that the text
denotes the number only within the reach of such words, and what is read back is the number next to the
text. -/
theorem integerText_of_whole (whole : number.integer? = some value) : IntegerText number value where
  spells _ := spells_argumentText whole
  exact _ := by
    have spelled := spells_argumentText whole
    have held : clampToWord value = value ↔ wordLow ≤ value ∧ value ≤ wordHigh := by
      have ordered : wordLow ≤ wordHigh := by decide
      unfold clampToWord
      omega
    rw [← held, Expression.write]
    constructor
    · exact fun other => spelled.unique other
    · intro same
      rwa [same] at spelled
  reread := by
    obtain ⟨numeral, decimal, text, again⟩ := exists_numeral_of_integer? whole
    have ordered : wordLow ≤ wordHigh := by decide
    refine ⟨numeral.value, again, fun filled => ⟨?_, ?_⟩, ?_⟩
    · intro same
      rw [same, whole, Option.some.injEq] at again
      omega
    · rintro ⟨low, high⟩
      have nearest : max wordLow (min value (wordHigh + 1)) = value := by omega
      rw [nearest] at again
      exact eq_of_integer? whole again filled
    · intro _ cursor tail ended shape
      rw [Expression.write, text] at shape
      have front : cursor.rest = [] ++ (numeral.written ++ tail) := shape
      exact Cursor.readLexeme_of_read front (by simp) (Lexeme.read_numeral decimal ended)

/-- A literal too large for a word is written as the greatest word, and read back as the number next to
this. -/
theorem integerText_of_large_literal :
    let literal := (Lexeme.Numeral.read "10000000000000000000".toList).value
    literal.integer? = some 10000000000000000000 ∧
      literal.argumentText = "9223372036854775807".toList ∧
      IntegerText literal 10000000000000000000 :=
  ⟨by decide +kernel, by decide +kernel, integerText_of_whole (by decide +kernel)⟩

end Binary64

end LayoutMarkup
