import LayoutMarkup.Binary64.Rounding
import Mathlib.Algebra.Order.Field.Power
import Mathlib.Tactic.FieldSimp
import Mathlib.Tactic.Linarith
import Mathlib.Tactic.NormNum

/-! What rounds to a number. A fraction within half a step of a finite number, or at half a step if
the significand is even, rounds to this number; below a power of two the steps are half as wide. -/

namespace LayoutMarkup.Binary64

/-- The significands and exponents of finite numbers. -/
structure Fits (significand : Nat) (exponent : Int) : Prop where
  least : -1074 ≤ exponent
  greatest : exponent ≤ 971
  short : significand < 2 * binade
  normal : exponent = -1074 ∨ binade ≤ significand

/-- The bits of a finite number without its sign. -/
def code (significand : Nat) (exponent : Int) : Nat :=
  (exponent + 1074).toNat * binade + significand

variable {significand : Nat} {exponent : Int}

theorem code_lt (fits : Fits significand exponent) :
    code significand exponent < exponentLimit * binade := by
  obtain ⟨least, greatest, short, -⟩ := fits
  simp only [code, exponentLimit, binade, Nat.pow_eq] at *
  omega

/-- The bits behind the sign are a field for the exponent and a fraction. -/
theorem eq_ofCode_of_field (bits : UInt64) :
    ⟨bits⟩ = ofCode (decide (signBit ≤ bits.toNat))
      (bits.toNat / binade % (exponentLimit + 1) * binade + bits.toNat % binade) := by
  have bound : bits.toNat < 2 ^ 64 := bits.toNat_lt
  have whole : (if decide (signBit ≤ bits.toNat) = true then
      signBit + (bits.toNat / binade % (exponentLimit + 1) * binade + bits.toNat % binade)
      else bits.toNat / binade % (exponentLimit + 1) * binade + bits.toNat % binade) =
        bits.toNat := by
    by_cases high : signBit ≤ bits.toNat
    · simp only [high, decide_true, if_true]
      simp only [signBit, binade, exponentLimit, Nat.pow_eq] at *
      omega
    · simp only [high, decide_false, Bool.false_eq_true, if_false]
      simp only [signBit, binade, exponentLimit, Nat.pow_eq] at *
      omega
  rw [ofCode, whole, UInt64.ofNat_toNat]

/-- A finite number is told by its sign, its significand and its exponent. -/
theorem eq_ofCode_of_view {number : Binary64} {negative : Bool}
    (seen : number.view = .finite negative significand exponent) :
    Fits significand exponent ∧ number = ofCode negative (code significand exponent) := by
  obtain ⟨bits⟩ := number
  have small : bits.toNat % binade < binade := Nat.mod_lt _ (by decide)
  have field : bits.toNat / binade % (exponentLimit + 1) < exponentLimit + 1 :=
    Nat.mod_lt _ (by decide)
  simp only [view] at seen
  split at seen
  · split at seen <;> cases seen
  · rename_i finite
    split at seen
    · rename_i subnormal
      cases seen
      refine ⟨⟨by omega, by omega, by omega, .inl rfl⟩, (eq_ofCode_of_field bits).trans ?_⟩
      rw [subnormal, Nat.zero_mul]
      simp [code]
    · rename_i normal
      cases seen
      refine ⟨⟨by omega, by simp only [exponentLimit] at *; omega, by omega, .inr (by omega)⟩,
        (eq_ofCode_of_field bits).trans (congrArg _ ?_)⟩
      simp only [code, exponentLimit, binade, Nat.pow_eq] at *
      omega

/-- The quotient is rounded to the natural number that is nearest to it. -/
theorem nearestQuotient_eq {numerator denominator number : Nat} (positive : 0 < denominator)
    (low : 2 * (number * denominator) < 2 * numerator + denominator ∨
      number % 2 = 0 ∧ 2 * (number * denominator) = 2 * numerator + denominator)
    (high : 2 * numerator < 2 * (number * denominator) + denominator ∨
      number % 2 = 0 ∧ 2 * numerator = 2 * (number * denominator) + denominator) :
    nearestQuotient numerator denominator = number := by
  have parts := Nat.div_add_mod numerator denominator
  have rest := Nat.mod_lt numerator positive
  rw [Nat.mul_comm] at parts
  unfold nearestQuotient
  dsimp only
  generalize numerator / denominator = quotient at *
  generalize numerator % denominator = left at *
  subst parts
  -- the quotient without its remainder is the number or the number before it
  rcases Nat.lt_trichotomy quotient number with less | rfl | greater
  · have next : number = quotient + 1 := by
      by_contra other
      have far := Nat.mul_le_mul_right denominator (show quotient + 2 ≤ number by omega)
      rw [Nat.add_mul] at far
      omega
    subst next
    rw [Nat.add_mul] at low high
    split
    · omega
    · split
      · rfl
      · split
        · omega
        · rfl
  · split
    · rfl
    · split
      · omega
      · split
        · rfl
        · omega
  · have far := Nat.mul_le_mul_right denominator (show number + 1 ≤ quotient by omega)
    rw [Nat.add_mul] at far
    omega

/-- A fraction over a power of two, in two natural numbers. -/
theorem overPower_eq (numerator : Nat) {denominator : Nat} (positive : 0 < denominator)
    (exponent : Int) :
    0 < (overPower numerator denominator exponent).2 ∧
    ((overPower numerator denominator exponent).1 : ℚ) /
      (overPower numerator denominator exponent).2 = numerator / denominator / 2 ^ exponent := by
  simp only [overPower, Nat.pow_eq]
  split
  · rename_i negative
    refine ⟨positive, ?_⟩
    obtain ⟨count, rfl⟩ : ∃ count : Nat, exponent = -count := ⟨(-exponent).toNat, by omega⟩
    simp only [neg_neg, Int.toNat_natCast, Nat.cast_mul, Nat.cast_pow, Nat.cast_ofNat, zpow_neg,
      zpow_natCast, div_inv_eq_mul]
    rw [mul_div_right_comm]
  · rename_i large
    obtain ⟨count, rfl⟩ : ∃ count : Nat, exponent = count := ⟨exponent.toNat, by omega⟩
    refine ⟨by positivity, ?_⟩
    simp only [Int.toNat_natCast, Nat.cast_mul, Nat.cast_pow, Nat.cast_ofNat, zpow_natCast]
    rw [div_div]

theorem two_zpow_pos (exponent : Int) : (0 : ℚ) < 2 ^ exponent := by positivity

/-- A step of so many powers of two. -/
theorem two_zpow_add (exponent : Int) (count : Nat) :
    (2 : ℚ) ^ (exponent + count) = 2 ^ count * 2 ^ exponent := by
  rw [zpow_add₀ two_ne_zero, zpow_natCast, mul_comm]

/-- The lengths of numerator and denominator tell a fraction up to a factor of four. -/
theorem fraction_bounds {numerator denominator : Nat} (filled : 0 < numerator)
    (positive : 0 < denominator) :
    (2 : ℚ) ^ ((Nat.log2 numerator : Int) - Nat.log2 denominator - 1) < numerator / denominator ∧
    (numerator / denominator : ℚ) < 2 ^ ((Nat.log2 numerator : Int) - Nat.log2 denominator + 1) := by
  have divisor : (0 : ℚ) < denominator := by exact_mod_cast positive
  have bottom : ((2 : ℚ) ^ Nat.log2 numerator) ≤ numerator := by
    exact_mod_cast Nat.log2_self_le (Nat.ne_of_gt filled)
  have top : (numerator : ℚ) < 2 ^ (Nat.log2 numerator + 1) := by
    exact_mod_cast Nat.lt_log2_self
  have under : ((2 : ℚ) ^ Nat.log2 denominator) ≤ denominator := by
    exact_mod_cast Nat.log2_self_le (Nat.ne_of_gt positive)
  have above : (denominator : ℚ) < 2 ^ (Nat.log2 denominator + 1) := by
    exact_mod_cast Nat.lt_log2_self
  constructor
  · rw [lt_div_iff₀ divisor]
    calc (2 : ℚ) ^ ((Nat.log2 numerator : Int) - Nat.log2 denominator - 1) * denominator
        < 2 ^ ((Nat.log2 numerator : Int) - Nat.log2 denominator - 1) *
            2 ^ (Nat.log2 denominator + 1) := mul_lt_mul_of_pos_left above (two_zpow_pos _)
      _ = 2 ^ Nat.log2 numerator := by
        rw [← zpow_natCast, ← zpow_natCast, ← zpow_add₀ two_ne_zero]
        congr 1
        omega
      _ ≤ numerator := bottom
  · rw [div_lt_iff₀ divisor]
    calc (numerator : ℚ) < 2 ^ (Nat.log2 numerator + 1) := top
      _ = 2 ^ ((Nat.log2 numerator : Int) - Nat.log2 denominator + 1) *
            2 ^ Nat.log2 denominator := by
        rw [← zpow_natCast, ← zpow_natCast, ← zpow_add₀ two_ne_zero]
        congr 1
        omega
      _ ≤ 2 ^ ((Nat.log2 numerator : Int) - Nat.log2 denominator + 1) * denominator :=
        mul_le_mul_of_nonneg_left under (two_zpow_pos _).le

/-- The exponent that is chosen for a fraction makes its significand as long as it may be. -/
theorem exponentOf_spec {numerator denominator : Nat} (filled : 0 < numerator)
    (positive : 0 < denominator) :
    -1074 ≤ exponentOf numerator denominator ∧
    (numerator / denominator : ℚ) < 2 ^ 53 * 2 ^ exponentOf numerator denominator ∧
    (exponentOf numerator denominator = -1074 ∨
      2 ^ 52 * 2 ^ exponentOf numerator denominator ≤ (numerator / denominator : ℚ)) := by
  obtain ⟨lower, upper⟩ := fraction_bounds filled positive
  unfold exponentOf
  dsimp only
  generalize guessed : (Nat.log2 numerator : Int) - Nat.log2 denominator - 53 = guess
  have least : (Nat.log2 numerator : Int) - Nat.log2 denominator - 1 = guess + (52 : Nat) := by omega
  have most : (Nat.log2 numerator : Int) - Nat.log2 denominator + 1 = guess + (54 : Nat) := by omega
  rw [least, two_zpow_add] at lower
  rw [most, two_zpow_add] at upper
  obtain ⟨divisor, scaled⟩ := overPower_eq numerator positive guess
  have long : 2 * binade ≤ (overPower numerator denominator guess).1 /
      (overPower numerator denominator guess).2 ↔
        (2 : ℚ) ^ 53 * 2 ^ guess ≤ numerator / denominator := by
    have divisor' : (0 : ℚ) < (overPower numerator denominator guess).2 := by exact_mod_cast divisor
    rw [Nat.le_div_iff_mul_le divisor, ← le_div_iff₀ (two_zpow_pos guess), ← scaled,
      le_div_iff₀ divisor', binade]
    norm_cast
  simp only [long]
  -- before the least exponent is looked at, the significand has 53 bits
  obtain ⟨exponent, chosen, short, normal⟩ : ∃ exponent : Int,
      (if (2 : ℚ) ^ 53 * 2 ^ guess ≤ numerator / denominator then guess + 1 else guess) = exponent ∧
      (numerator / denominator : ℚ) < 2 ^ 53 * 2 ^ exponent ∧
      2 ^ 52 * 2 ^ exponent ≤ (numerator / denominator : ℚ) := by
    split
    · rename_i enough
      have step : (2 : ℚ) ^ (guess + 1) = 2 * 2 ^ guess := by simpa using two_zpow_add guess 1
      exact ⟨guess + 1, rfl, by rw [step]; linarith, by rw [step]; linarith⟩
    · rename_i few
      exact ⟨guess, rfl, not_le.mp few, lower.le⟩
  rw [chosen]
  refine ⟨le_max_right _ _, ?_, ?_⟩
  · have grown : (2 : ℚ) ^ exponent ≤ 2 ^ max exponent (-1074) :=
      zpow_le_zpow_right₀ one_le_two (le_max_left _ _)
    linarith
  · rcases le_total exponent (-1074) with small | large
    · exact .inl (max_eq_right small)
    · rw [max_eq_left large]
      exact .inr normal

/-- A fraction within half of one of a natural number has it as its nearest. -/
theorem nearestQuotient_of_near {numerator denominator number : Nat} (positive : 0 < denominator)
    (low : (number - 1 / 2 : ℚ) < numerator / denominator ∨
      number % 2 = 0 ∧ (number - 1 / 2 : ℚ) = numerator / denominator)
    (high : (numerator / denominator : ℚ) < number + 1 / 2 ∨
      number % 2 = 0 ∧ (numerator / denominator : ℚ) = number + 1 / 2) :
    nearestQuotient numerator denominator = number := by
  have divisor : (0 : ℚ) < denominator := by exact_mod_cast positive
  apply nearestQuotient_eq positive
  · refine low.imp (fun less => ?_) (fun ⟨even, same⟩ => ⟨even, ?_⟩)
    · rw [lt_div_iff₀ divisor] at less
      have twice : (2 * (number * denominator) : ℚ) < 2 * numerator + denominator := by linarith
      exact_mod_cast twice
    · rw [eq_div_iff divisor.ne'] at same
      have twice : (2 * (number * denominator) : ℚ) = 2 * numerator + denominator := by linarith
      exact_mod_cast twice
  · refine high.imp (fun less => ?_) (fun ⟨even, same⟩ => ⟨even, ?_⟩)
    · rw [div_lt_iff₀ divisor] at less
      have twice : (2 * numerator : ℚ) < 2 * (number * denominator) + denominator := by linarith
      exact_mod_cast twice
    · rw [div_eq_iff divisor.ne'] at same
      have twice : (2 * numerator : ℚ) = 2 * (number * denominator) + denominator := by linarith
      exact_mod_cast twice

/-- How far below a number the fractions go that round to it. -/
def reach (significand : Nat) : ℚ := if significand = binade then 1 / 4 else 1 / 2

theorem reach_bounds (significand : Nat) : 0 < reach significand ∧ reach significand ≤ 1 / 2 := by
  unfold reach
  split <;> norm_num

/-- A fraction that rounds to a number. -/
structure Within (significand : Nat) (exponent : Int) (fraction : ℚ) : Prop where
  low : (significand - reach significand) * 2 ^ exponent < fraction ∨
    significand % 2 = 0 ∧ (significand - reach significand) * 2 ^ exponent = fraction
  high : fraction < (significand + 1 / 2) * 2 ^ exponent ∨
    significand % 2 = 0 ∧ fraction = (significand + 1 / 2) * 2 ^ exponent

namespace Within

variable {fraction : ℚ} (within : Within significand exponent fraction)
include within

theorem le : (significand - reach significand) * 2 ^ exponent ≤ fraction :=
  within.low.elim le_of_lt fun tie => tie.2.le

theorem ge : fraction ≤ (significand + 1 / 2) * 2 ^ exponent :=
  within.high.elim le_of_lt fun tie => tie.2.le

theorem pos (filled : 0 < significand) : 0 < fraction := by
  have one : (1 : ℚ) ≤ significand := by exact_mod_cast filled
  have half := (reach_bounds significand).2
  have step := two_zpow_pos exponent
  have low := within.le
  nlinarith

end Within

/-- What exponent is chosen for a fraction that should round to a number, and what significand: both
are those of the number, except that a fraction just below a power of two rounds up to it. -/
theorem chosen_of_within {numerator denominator : Nat} (fits : Fits significand exponent)
    (filled : 0 < significand) (positive : 0 < denominator)
    (within : Within significand exponent (numerator / denominator)) :
    exponentOf numerator denominator = exponent ∨
    significand = binade ∧ exponentOf numerator denominator = exponent - 1 ∧
      -1074 < exponent := by
  have present : 0 < numerator := by
    have ratio := within.pos filled
    by_contra none
    obtain rfl : numerator = 0 := by omega
    simp at ratio
  obtain ⟨least, short, normal⟩ := exponentOf_spec present positive
  have low := within.le
  have high := within.ge
  have step := two_zpow_pos exponent
  generalize exponentOf numerator denominator = chosen at *
  have size : (significand : ℚ) ≤ 2 ^ 53 - 1 := by
    have short := fits.short
    have bound : significand + 1 ≤ 2 ^ 53 := by
      simp only [binade, Nat.pow_eq] at short
      omega
    have bound' : (significand : ℚ) + 1 ≤ 2 ^ 53 := by exact_mod_cast bound
    linarith
  rcases lt_trichotomy chosen exponent with less | same | greater
  · right
    have large : (2 : ℚ) ^ 52 ≤ significand := by
      have bound := fits.normal.resolve_left (by omega)
      exact_mod_cast bound
    have near := (reach_bounds significand).2
    have next : chosen = exponent - 1 := by
      by_contra other
      have far : (4 : ℚ) * 2 ^ chosen ≤ 2 ^ exponent := by
        have grown : (2 : ℚ) ^ (chosen + (2 : Nat)) ≤ 2 ^ exponent :=
          zpow_le_zpow_right₀ one_le_two (by omega)
        rw [two_zpow_add] at grown
        linarith
      nlinarith
    refine ⟨?_, next, by omega⟩
    have double : (2 : ℚ) ^ exponent = 2 * 2 ^ chosen := by
      have grown := two_zpow_add chosen 1
      rw [next] at grown ⊢
      simpa using grown
    by_contra other
    have more : (2 : ℚ) ^ 52 + 1 ≤ significand := by
      have bound := fits.normal.resolve_left (by omega)
      have next : binade + 1 ≤ significand := by omega
      exact_mod_cast next
    nlinarith
  · exact .inl same
  · exfalso
    have normal' := normal.resolve_left (by have := fits.least; omega)
    have far : (2 : ℚ) * 2 ^ exponent ≤ 2 ^ chosen := by
      have grown : (2 : ℚ) ^ (exponent + (1 : Nat)) ≤ 2 ^ chosen :=
        zpow_le_zpow_right₀ one_le_two (by omega)
      rw [two_zpow_add] at grown
      linarith
    nlinarith

/-- What lies within half a step of a number rounds to it. -/
theorem ofFraction_of_within (negative : Bool) {numerator denominator : Nat}
    (fits : Fits significand exponent) (filled : 0 < significand) (positive : 0 < denominator)
    (within : Within significand exponent (numerator / denominator)) :
    ofFraction negative numerator denominator = ofCode negative (code significand exponent) := by
  have present : numerator ≠ 0 := by
    rintro rfl
    simpa using within.pos filled
  have step := two_zpow_pos exponent
  have limit := (code_lt fits).le
  unfold ofFraction
  rw [if_neg present]
  dsimp only
  obtain ⟨divisor, scaled⟩ :=
    overPower_eq numerator positive (exponentOf numerator denominator)
  rcases chosen_of_within fits filled positive within with same | ⟨edge, before, least⟩
  · rw [same] at divisor scaled ⊢
    have near : (reach significand : ℚ) ≤ 1 / 2 := (reach_bounds significand).2
    have rounded : nearestQuotient (overPower numerator denominator exponent).1
        (overPower numerator denominator exponent).2 = significand := by
      apply nearestQuotient_of_near divisor
      · rw [scaled, lt_div_iff₀ step, eq_div_iff step.ne']
        rcases within.low with less | ⟨even, tie⟩
        · left
          nlinarith
        · by_cases half : reach significand = 1 / 2
          · rw [half] at tie
            exact .inr ⟨even, tie⟩
          · have nearer := lt_of_le_of_ne near half
            left
            nlinarith
      · rw [scaled, div_lt_iff₀ step, div_eq_iff step.ne']
        exact within.high
    rw [rounded]
    exact congrArg _ (min_eq_left limit)
  · subst edge
    rw [before] at divisor scaled ⊢
    have less := two_zpow_pos (exponent - 1)
    have double : (2 : ℚ) ^ exponent = 2 * 2 ^ (exponent - 1) := by
      simpa using two_zpow_add (exponent - 1) 1
    have low := within.le
    rw [reach, if_pos rfl, double] at low
    obtain ⟨-, short, -⟩ := exponentOf_spec (Nat.pos_of_ne_zero present) positive
    rw [before] at short
    have size : ((2 * binade : Nat) : ℚ) = 2 ^ 53 := by norm_num [binade]
    have size' : (binade : ℚ) = 2 ^ 52 := by norm_num [binade]
    have rounded : nearestQuotient (overPower numerator denominator (exponent - 1)).1
        (overPower numerator denominator (exponent - 1)).2 = 2 * binade := by
      apply nearestQuotient_of_near divisor
      · rw [scaled, lt_div_iff₀ less, eq_div_iff less.ne', size]
        have bound : ((2 : ℚ) ^ 53 - 1 / 2) * 2 ^ (exponent - 1) ≤ numerator / denominator := by
          rw [size'] at low
          linarith
        rcases bound.lt_or_eq with above | tie
        · exact .inl above
        · exact .inr ⟨by decide, tie⟩
      · left
        rw [scaled, div_lt_iff₀ less, size]
        linarith
    have parts : (exponent - 1 + 1074).toNat * binade + 2 * binade = code binade exponent := by
      simp only [code, binade, Nat.pow_eq]
      omega
    rw [rounded, parts]
    exact congrArg _ (min_eq_left limit)

end LayoutMarkup.Binary64
