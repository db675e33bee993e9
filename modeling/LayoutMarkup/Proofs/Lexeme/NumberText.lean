import LayoutMarkup.Proofs.Binary64.Shortest
import LayoutMarkup.Proofs.Lexeme.Numerals

/-! The text of a number, read back. It is a numeral or the name of what is no finite number. A numeral
has a value with the same text: the value is the number itself, or both are beyond what a signed word
holds. -/

namespace LayoutMarkup

theorem digitsValue_toDigits (number : Nat) : digitsValue (Nat.toDigits 10 number) = number :=
  Nat.ofDigitChars_ten_toDigits

theorem digitsValue_append (first second : List Char) :
    digitsValue (first ++ second) = 10 ^ second.length * digitsValue first + digitsValue second := by
  have joined : digitsValue (first ++ second) = Nat.ofDigitChars 10 second (digitsValue first) :=
    Nat.ofDigitChars_append 0
  rw [joined, Nat.ofDigitChars_eq_ofDigitChars_zero]
  rfl

theorem digitsValue_zeros (count : Nat) : digitsValue (List.replicate count '0') = 0 := by
  have zeros : Nat.ofDigitChars 10 (List.replicate count '0') 0 = 10 ^ count * 0 :=
    Nat.ofDigitChars_replicate_zero
  exact zeros.trans (Nat.mul_zero _)

/-- The fraction that a numeral says, without its sign. -/
def Lexeme.Numeral.fraction (numeral : Lexeme.Numeral) : ℚ :=
  digitsValue (numeral.whole ++ numeral.decimals.getD []) /
    10 ^ (numeral.decimals.getD []).length

namespace Binary64

open Lexeme

private theorem isDigit_toDigits (number : Nat) :
    ∀ c ∈ Nat.toDigits 10 number, c.isDigit = true :=
  fun _ member => Nat.isDigit_of_mem_toDigits (by decide) (by decide) member

/-- All places of a decimal written out make a numeral with its value. -/
theorem exists_numeral_of_positional (negative : Bool) (decimal : Decimal) :
    ∃ numeral : Numeral, numeral.IsDecimal ∧ numeral.negative = negative ∧
      numeral.written = signed negative decimal.positional ∧ numeral.fraction = decimal.value := by
  have digits := isDigit_toDigits decimal.digits
  have value := digitsValue_toDigits decimal.digits
  have zeros : ∀ count, ∀ c ∈ List.replicate count '0', c.isDigit = true := by
    intro count c member
    obtain ⟨-, rfl⟩ := List.mem_replicate.mp member
    decide
  unfold Decimal.value Decimal.positional Decimal.digitText
  generalize places_eq : (-decimal.exponent).toNat = places
  generalize text : Nat.toDigits 10 decimal.digits = figures at digits value
  have power := zpow_eq_div (show (0 : ℚ) < 10 by norm_num) decimal.exponent
  rw [places_eq] at power
  dsimp only
  split
  · rename_i whole
    refine ⟨⟨negative, figures ++ List.replicate decimal.exponent.toNat '0', none⟩,
      ⟨?_, ?_, by simp⟩, rfl, ?_, ?_⟩
    · simp [← text]
    · intro c member
      rcases List.mem_append.mp member with front | back
      · exact digits c front
      · exact zeros _ c back
    · cases negative <;> simp [Numeral.written, signed]
    · rw [power, whole]
      simp [Numeral.fraction, digitsValue_append, digitsValue_zeros, value, mul_comm]
  · rename_i point
    have small : decimal.exponent.toNat = 0 := by omega
    rw [power, small, pow_zero, mul_one_div]
    split
    · rename_i within
      refine ⟨⟨negative, figures.take (figures.length - places),
        some (figures.drop (figures.length - places))⟩, ⟨?_, ?_, ?_⟩, rfl, ?_, ?_⟩
      · have positive : 0 < (figures.take (figures.length - places)).length := by
          rw [List.length_take]
          omega
        exact List.length_pos_iff.mp positive
      · exact fun c member => digits c (List.mem_of_mem_take member)
      · rintro _ ⟨⟩ c member
        exact digits c (List.mem_of_mem_drop member)
      · cases negative <;> simp [Numeral.written, signed]
      · have length : figures.length - (figures.length - places) = places := by omega
        simp [Numeral.fraction, value, length]
    · refine ⟨⟨negative, ['0'], some (List.replicate (places - figures.length) '0' ++ figures)⟩,
        ⟨by simp, by simp, ?_⟩, rfl, ?_, ?_⟩
      · rintro _ ⟨⟩ c member
        rcases List.mem_append.mp member with front | back
        · exact zeros _ c front
        · exact digits c back
      · cases negative <;> simp [Numeral.written, signed]
      · have length : places - figures.length + figures.length = places := by omega
        have front : digitsValue ['0'] = 0 := by decide
        simp only [Numeral.fraction, Option.getD_some, digitsValue_append, front,
          digitsValue_zeros, value, List.length_append, List.length_replicate, length]
        simp

/-- A whole number in decimal digits is a numeral with its value. -/
theorem exists_numeral_of_integer (value : Int) :
    ∃ numeral : Numeral, numeral.IsDecimal ∧ numeral.negative = decide (value < 0) ∧
      numeral.written = (toString value).toList ∧ numeral.fraction = value.natAbs := by
  refine ⟨⟨value < 0, Nat.toDigits 10 value.natAbs, none⟩,
    ⟨Nat.toDigits_ne_nil, isDigit_toDigits _, by simp⟩, rfl, ?_, ?_⟩
  · cases value with
    | ofNat number => simp [Numeral.written, Int.toString_eq_repr, Int.repr]
    | negSucc number => simp [Numeral.written, Int.toString_eq_repr, Int.repr]
  · simp [Numeral.fraction, digitsValue_toDigits]

/-- What is a number itself rounds to it. -/
theorem within_self (significand : Nat) (exponent : Int) :
    Within significand exponent (significand * 2 ^ exponent) := by
  have step := two_zpow_pos exponent
  have near := (reach_bounds significand).1
  refine ⟨.inl ?_, .inl ?_⟩ <;> nlinarith

/-- A numeral whose fraction rounds to a number has this number as its value. -/
theorem value_of_within {number : Binary64} {numeral : Numeral} {significand : Nat}
    {exponent : Int} (seen : number.view = .finite numeral.negative significand exponent)
    (filled : 0 < significand) (within : Within significand exponent numeral.fraction) :
    numeral.value = number := by
  obtain ⟨fits, same⟩ := eq_ofCode_of_view seen
  rw [same]
  apply ofFraction_of_within _ fits filled (Nat.pow_pos (by decide))
  simpa [Numeral.fraction] using within

/-- A whole number is its significand times a power of two. -/
theorem view_of_integer? {number : Binary64} {value : Int} (whole : number.integer? = some value) :
    ∃ negative significand exponent, number.view = .finite negative significand exponent ∧
      (value.natAbs : ℚ) = significand * 2 ^ exponent ∧
      (0 < significand → decide (value < 0) = negative) := by
  unfold integer? at whole
  split at whole
  · rename_i negative significand exponent seen
    simp only [Nat.pow_eq] at whole
    split at whole
    · rename_i divides
      refine ⟨negative, significand, exponent, seen, ?_⟩
      have parts := zpow_eq_div (two_pos : (0 : ℚ) < 2) exponent
      have step := two_zpow_pos exponent
      obtain ⟨quotient, rfl⟩ := Nat.dvd_of_mod_eq_zero divides
      -- the integer is a natural number with a sign
      obtain ⟨size, same, amount⟩ : ∃ size : Nat, value = (if negative then -(size : Int) else size) ∧
          (size : ℚ) = (2 ^ (-exponent).toNat * quotient : Nat) * 2 ^ exponent := by
        refine ⟨quotient * 2 ^ exponent.toNat, ?_, ?_⟩
        · rw [← Option.some.inj whole, ← Int.natCast_ediv, Nat.mul_div_cancel_left _ (by positivity)]
          push_cast
          rfl
        · rw [parts]
          push_cast
          field_simp
      have absolute : value.natAbs = size := by
        cases negative <;> simp [same]
      refine ⟨by rw [absolute, amount], ?_⟩
      intro filled
      have positive : 0 < size := by
        have filled' : (0 : ℚ) < (2 ^ (-exponent).toNat * quotient : Nat) := by exact_mod_cast filled
        have above : (0 : ℚ) < size := by
          rw [amount]
          positivity
        exact_mod_cast above
      subst same
      cases negative with
      | true => simpa using positive
      | false => simp
    · cases whole
  · cases whole

/-- A numeral that says a whole number is read as the number. -/
theorem value_of_integer? {number : Binary64} {numeral : Numeral} {value : Int}
    (whole : number.integer? = some value) (filled : value ≠ 0)
    (sign : numeral.negative = decide (value < 0)) (fraction : numeral.fraction = value.natAbs) :
    numeral.value = number := by
  obtain ⟨negative, significand, exponent, seen, size, signed⟩ := view_of_integer? whole
  have positive : 0 < significand := by
    rw [Nat.pos_iff_ne_zero]
    rintro rfl
    rw [Nat.cast_zero, zero_mul] at size
    exact filled (Int.natAbs_eq_zero.mp (by exact_mod_cast size))
  rw [← signed positive, ← sign] at seen
  apply value_of_within seen positive
  rw [fraction, size]
  exact within_self significand exponent

/-- The bounds of a signed word are read as the powers of two at them. -/
theorem value_of_low {numeral : Numeral} (sign : numeral.negative = true)
    (fraction : numeral.fraction = 2 ^ 63) : numeral.value = ⟨0xC3E0000000000000⟩ := by
  have whole : (⟨0xC3E0000000000000⟩ : Binary64).integer? = some wordLow := by decide +kernel
  refine value_of_integer? whole (by decide) (by rw [sign]; decide) ?_
  rw [fraction]
  norm_num [wordLow, Nat.pow_eq]

theorem value_of_high {numeral : Numeral} (sign : numeral.negative = false)
    (fraction : numeral.fraction = 2 ^ 63 - 1) : numeral.value = ⟨0x43E0000000000000⟩ := by
  have seen : (⟨0x43E0000000000000⟩ : Binary64).view = .finite numeral.negative binade 11 := by
    rw [sign]
    decide
  have within : Within binade 11 numeral.fraction := by
    rw [fraction]
    refine ⟨.inl ?_, .inl ?_⟩ <;> norm_num [binade, reach]
  exact value_of_within seen (by decide) within

theorem value_of_zero {numeral : Numeral} (sign : numeral.negative = false)
    (fraction : numeral.fraction = 0) : numeral.value = ofCode false 0 := by
  have digits : digitsValue (numeral.whole ++ numeral.decimals.getD []) = 0 := by
    have zero : (digitsValue (numeral.whole ++ numeral.decimals.getD []) : ℚ) = 0 := by
      rcases div_eq_zero_iff.mp fraction with none | never
      · exact none
      · exact absurd never (by positivity)
    exact_mod_cast zero
  rw [Numeral.value, ofNumeral, digits, sign]
  rfl

/-- The text of a whole number is a numeral. Its value is the number, or the nearest to this between
the least word and the power of two behind the greatest. -/
theorem exists_numeral_of_integer? {number : Binary64} {value : Int}
    (whole : number.integer? = some value) :
    ∃ numeral : Numeral, numeral.IsDecimal ∧ number.argumentText = numeral.written ∧
      numeral.value.integer? = some (max wordLow (min value (wordHigh + 1))) := by
  have text : number.argumentText = (toString (clampToWord value)).toList := by
    simp [argumentText, whole]
  obtain ⟨numeral, decimal, sign, written, fraction⟩ :=
    exists_numeral_of_integer (clampToWord value)
  refine ⟨numeral, decimal, text.trans written.symm, ?_⟩
  have low : wordLow = -2 ^ 63 := by decide
  have high : wordHigh = 2 ^ 63 - 1 := by decide
  rcases lt_or_ge value wordLow with below | above
  · have bound : clampToWord value = wordLow := by
      unfold clampToWord
      omega
    have nearest : max wordLow (min value (wordHigh + 1)) = wordLow := by omega
    rw [bound] at sign fraction
    rw [value_of_low sign (by rw [fraction, low]; norm_num), nearest]
    decide +kernel
  rcases lt_or_ge wordHigh value with beyond | within
  · have bound : clampToWord value = wordHigh := by
      unfold clampToWord
      omega
    have nearest : max wordLow (min value (wordHigh + 1)) = wordHigh + 1 := by omega
    rw [bound] at sign fraction
    rw [value_of_high sign (by rw [fraction, high]; norm_num), nearest]
    decide +kernel
  have same : clampToWord value = value := by
    unfold clampToWord
    omega
  have nearest : max wordLow (min value (wordHigh + 1)) = value := by omega
  rw [same] at sign fraction
  rw [nearest]
  by_cases zero : value = 0
  · subst zero
    rw [value_of_zero sign (by rw [fraction]; rfl)]
    decide +kernel
  · rw [value_of_integer? whole zero sign fraction, whole]

/-- The text of a number is a numeral whose value has the same text, or it is a name. -/
theorem argumentText_cases (number : Binary64) :
    (∃ numeral : Numeral, numeral.IsDecimal ∧ number.argumentText = numeral.written ∧
        numeral.value.argumentText = number.argumentText) ∨
      IsName number.argumentText := by
  cases whole : number.integer? with
  | some value =>
    obtain ⟨numeral, decimal, text, again⟩ := exists_numeral_of_integer? whole
    have held : clampToWord (max wordLow (min value (wordHigh + 1))) = clampToWord value := by
      have ordered : wordLow ≤ wordHigh := by decide
      unfold clampToWord
      omega
    refine .inl ⟨numeral, decimal, text, ?_⟩
    simp only [argumentText, again, whole, held]
  | none =>
    have text : number.argumentText = number.plain := by
      simp [argumentText, whole]
    rw [text]
    unfold plain
    split
    · exact .inr ⟨⟨by decide, by decide, by decide⟩, by decide, by decide⟩
    · rename_i negative _
      refine .inr ?_
      cases negative <;> exact ⟨⟨by decide, by decide, by decide⟩, by decide, by decide⟩
    · rename_i negative significand exponent seen
      have filled : 0 < significand := by
        rw [Nat.pos_iff_ne_zero]
        rintro rfl
        simp [integer?, seen] at whole
      obtain ⟨numeral, decimal, sign, written, fraction⟩ :=
        exists_numeral_of_positional negative (shortest significand exponent)
      rw [if_neg (Nat.ne_of_gt filled)]
      refine .inl ⟨numeral, decimal, written.symm, ?_⟩
      have within := shortest_within (eq_ofCode_of_view seen).1 filled
      rw [← fraction] at within
      rw [← sign] at seen
      rw [value_of_within seen filled within, text, plain, seen, ← sign]
      simp [Nat.ne_of_gt filled]

/-- What is read from the text of a number. -/
def reread (number : Binary64) : Lexeme :=
  if startsNumeral number.argumentText then .number (Numeral.read number.argumentText).value
  else .path (String.ofList number.argumentText)

/-- The text of a number is one lexeme. -/
theorem read_argumentText (number : Binary64) {tail : List Char} (ended : EndsWord tail) :
    read (number.argumentText ++ tail) = (.ok number.reread, number.argumentText.length) := by
  have nothing : EndsWord [] := by
    rintro _ ⟨⟩
  unfold reread
  rcases argumentText_cases number with ⟨numeral, decimal, text, -⟩ | name
  · have starts := Numeral.startsNumeral_written decimal []
    have alone := Numeral.read_written decimal nothing
    rw [List.append_nil] at starts alone
    rw [text, if_pos starts, alone, read_numeral decimal ended]
  · rw [if_neg (by simp [name.notNumeral]), read_name name ended]

end Binary64

end LayoutMarkup
