import LayoutMarkup.Binary64.Shortest
import LayoutMarkup.Proofs.Binary64.Rounding
import Mathlib.Tactic.Ring

/-! The shortest decimal of a number rounds to the number. The search for it ends within seventeen
digits, as the interval of what rounds to a number is wider than one step of its last digit. -/

namespace LayoutMarkup

/-- The number that a decimal says. -/
def Decimal.value (decimal : Decimal) : ℚ := decimal.digits * 10 ^ decimal.exponent

theorem zpow_eq_div {base : ℚ} (positive : 0 < base) (exponent : Int) :
    base ^ exponent = base ^ exponent.toNat / base ^ (-exponent).toNat := by
  rw [← zpow_natCast, ← zpow_natCast, ← zpow_sub₀ positive.ne']
  congr 1
  omega

theorem pow_le_of_digitCount {number : Nat} (positive : 0 < number) :
    10 ^ (digitCount number - 1) ≤ number := by
  rw [digitCount, if_neg (Nat.ne_of_gt positive)]
  by_contra less
  rw [not_le] at less
  by_cases short : (Nat.toDigits 10 number).length - 1 = 0
  · rw [short] at less
    omega
  · have fewer := (Nat.length_toDigits_le_iff (by decide) (Nat.pos_of_ne_zero short)).mpr less
    omega

theorem lt_pow_digitCount (number : Nat) : number < 10 ^ digitCount number := by
  unfold digitCount
  split
  · omega
  · exact (Nat.length_toDigits_le_iff (by decide) Nat.length_toDigits_pos).mp (Nat.le_refl _)

theorem digitCount_pos {number : Nat} (positive : 0 < number) : 0 < digitCount number := by
  rw [digitCount, if_neg (Nat.ne_of_gt positive)]
  exact Nat.length_toDigits_pos

namespace Binary64

namespace Interval

/-- Whether a fraction is not too small for an interval. -/
def FitsAbove (range : Interval) (fraction : ℚ) : Prop :=
  (range.low / range.denominator : ℚ) < fraction ∨
    range.closed = true ∧ (range.low / range.denominator : ℚ) = fraction

/-- Whether a fraction is not too large for an interval. -/
def FitsBelow (range : Interval) (fraction : ℚ) : Prop :=
  fraction < (range.high / range.denominator : ℚ) ∨
    range.closed = true ∧ fraction = (range.high / range.denominator : ℚ)

variable {range : Interval}

/-- The power of ten of the leading digit is not above the value. -/
theorem magnitude_le (positive : 0 < range.denominator) (filled : 0 < range.value) :
    (10 : ℚ) ^ range.magnitude ≤ range.value / range.denominator := by
  have divisor : (0 : ℚ) < range.denominator := by exact_mod_cast positive
  have some' : (0 : ℚ) < range.value := by exact_mod_cast filled
  unfold magnitude
  split
  · rename_i large
    have whole : 0 < range.value / range.denominator := Nat.div_pos large positive
    have digits := digitCount_pos whole
    have size := (Nat.le_div_iff_mul_le positive).mp (pow_le_of_digitCount whole)
    obtain ⟨count, same⟩ : ∃ count, digitCount (range.value / range.denominator) = count + 1 :=
      ⟨_, (Nat.succ_pred_eq_of_pos digits).symm⟩
    rw [same, Nat.add_sub_cancel] at size
    rw [same, le_div_iff₀ divisor]
    push_cast
    rw [add_sub_cancel_right, zpow_natCast]
    exact_mod_cast size
  · rename_i small
    have size := lt_pow_digitCount ((range.denominator - 1) / range.value)
    rw [Nat.div_lt_iff_lt_mul filled] at size
    have size' : range.denominator ≤
        10 ^ digitCount ((range.denominator - 1) / range.value) * range.value := by omega
    rw [zpow_neg, zpow_natCast, le_div_iff₀ divisor, inv_mul_le_iff₀ (by positivity)]
    exact_mod_cast size'

/-- Two sides over one denominator, where one of them is so many steps of a power of ten. -/
private theorem sides_eq (positive : 0 < range.denominator) (exponent : Int) (bound count : Nat) :
    ∃ factor : ℚ, 0 < factor ∧
      ((bound * 10 ^ (-exponent).toNat : Nat) : ℚ) = bound / range.denominator * factor ∧
      ((count * (range.denominator * 10 ^ exponent.toNat) : Nat) : ℚ) =
        count * 10 ^ exponent * factor := by
  have divisor : (0 : ℚ) < range.denominator := by exact_mod_cast positive
  refine ⟨range.denominator * 10 ^ (-exponent).toNat, by positivity, ?_, ?_⟩
  · push_cast
    field_simp
  · rw [zpow_eq_div (by norm_num)]
    push_cast
    field_simp

theorem side_lt (positive : 0 < range.denominator) (exponent : Int) (bound count : Nat) :
    bound * 10 ^ (-exponent).toNat < count * (range.denominator * 10 ^ exponent.toNat) ↔
      (bound / range.denominator : ℚ) < count * 10 ^ exponent := by
  obtain ⟨factor, above, left, right⟩ := sides_eq positive exponent bound count
  rw [← Nat.cast_lt (α := ℚ), left, right, mul_lt_mul_iff_left₀ above]

theorem lt_side (positive : 0 < range.denominator) (exponent : Int) (bound count : Nat) :
    count * (range.denominator * 10 ^ exponent.toNat) < bound * 10 ^ (-exponent).toNat ↔
      count * 10 ^ exponent < (bound / range.denominator : ℚ) := by
  obtain ⟨factor, above, left, right⟩ := sides_eq positive exponent bound count
  rw [← Nat.cast_lt (α := ℚ), left, right, mul_lt_mul_iff_left₀ above]

theorem side_eq (positive : 0 < range.denominator) (exponent : Int) (bound count : Nat) :
    bound * 10 ^ (-exponent).toNat = count * (range.denominator * 10 ^ exponent.toNat) ↔
      (bound / range.denominator : ℚ) = count * 10 ^ exponent := by
  obtain ⟨factor, above, left, right⟩ := sides_eq positive exponent bound count
  rw [← Nat.cast_inj (R := ℚ), left, right, mul_left_inj' above.ne']

theorem eq_side (positive : 0 < range.denominator) (exponent : Int) (bound count : Nat) :
    count * (range.denominator * 10 ^ exponent.toNat) = bound * 10 ^ (-exponent).toNat ↔
      count * 10 ^ exponent = (bound / range.denominator : ℚ) := by
  rw [eq_comm, side_eq positive, eq_comm]

/-- What is tried are the two decimals of so many digits that are next to the value. -/
theorem nearest?_eq (positive : 0 < range.denominator) (count : Nat) :
    ∃ (digits : Nat) (lowFits highFits later : Bool),
      (digits * 10 ^ (range.magnitude - count + 1) : ℚ) ≤ range.value / range.denominator ∧
      (range.value / range.denominator : ℚ) <
        (digits + 1 : Nat) * 10 ^ (range.magnitude - count + 1) ∧
      (lowFits = true ↔ range.FitsAbove (digits * 10 ^ (range.magnitude - count + 1))) ∧
      (highFits = true ↔ range.FitsBelow ((digits + 1 : Nat) * 10 ^ (range.magnitude - count + 1))) ∧
      range.nearest? count =
        if lowFits && !(highFits && later) then some ⟨digits, range.magnitude - count + 1⟩
        else if highFits then some ⟨digits + 1, range.magnitude - count + 1⟩
        else none := by
  have unit : 0 < range.denominator * 10 ^ (range.magnitude - count + 1).toNat := by positivity
  simp only [nearest?, Nat.pow_eq]
  refine ⟨_, _, _, _, ?_, ?_, ?_, ?_, rfl⟩
  · rw [← not_lt, ← side_lt positive, not_lt]
    exact Nat.div_mul_le_self _ _
  · rw [← side_lt positive]
    exact Nat.lt_mul_of_div_lt (Nat.lt_succ_self _) unit
  · rw [Bool.or_eq_true, Bool.and_eq_true, decide_eq_true_eq, decide_eq_true_eq, side_lt positive,
      side_eq positive]
    rfl
  · rw [Bool.or_eq_true, Bool.and_eq_true, decide_eq_true_eq, decide_eq_true_eq, lt_side positive,
      eq_side positive]
    rfl

/-- What is found lies in the interval. -/
theorem fits_of_nearest? {count : Nat} {decimal : Decimal} (positive : 0 < range.denominator)
    (less : range.low < range.value) (more : range.value < range.high)
    (found : range.nearest? count = some decimal) :
    range.FitsAbove decimal.value ∧ range.FitsBelow decimal.value := by
  have divisor : (0 : ℚ) < range.denominator := by exact_mod_cast positive
  have less' : (range.low / range.denominator : ℚ) < range.value / range.denominator := by
    gcongr
  have more' : (range.value / range.denominator : ℚ) < range.high / range.denominator := by
    gcongr
  obtain ⟨digits, lowFits, highFits, later, below, above, low, high, same⟩ :=
    nearest?_eq positive count
  rw [same] at found
  split at found
  · rename_i fits
    cases found
    simp only [Bool.and_eq_true] at fits
    exact ⟨low.mp fits.1, .inl (lt_of_le_of_lt below more')⟩
  · split at found
    · rename_i fits
      cases found
      exact ⟨.inl (less'.trans above), high.mp fits⟩
    · cases found

/-- An interval that is wider than a step of the last digit holds a decimal. -/
theorem nearest?_isSome {count : Nat} (positive : 0 < range.denominator)
    (wide : (range.low / range.denominator : ℚ) + 10 ^ (range.magnitude - count + 1) <
      range.high / range.denominator) :
    (range.nearest? count).isSome = true := by
  obtain ⟨digits, lowFits, highFits, later, -, -, low, high, same⟩ := nearest?_eq positive count
  rw [same]
  by_cases fits : highFits = true
  · simp only [fits, if_true]
    split <;> rfl
  · by_cases fits' : lowFits = true
    · simp [fits, fits']
    · have short := mt low.mpr fits'
      have long := mt high.mpr fits
      simp only [FitsAbove, FitsBelow, not_or, not_lt] at short long
      have step := long.1
      push_cast at step
      linarith [short.1]

end Interval

variable {significand : Nat} {exponent : Int}

/-- The bounds of what rounds to a number. -/
theorem interval_bounds (exponent : Int) (filled : 0 < significand) :
    0 < (interval significand exponent).denominator ∧
    (interval significand exponent).low < (interval significand exponent).value ∧
    (interval significand exponent).value < (interval significand exponent).high ∧
    ((interval significand exponent).value / (interval significand exponent).denominator : ℚ) =
      significand * 2 ^ exponent ∧
    ((interval significand exponent).low / (interval significand exponent).denominator : ℚ) =
      (significand - reach significand) * 2 ^ exponent ∧
    ((interval significand exponent).high / (interval significand exponent).denominator : ℚ) =
      (significand + 1 / 2) * 2 ^ exponent := by
  have parts := zpow_eq_div (two_pos : (0 : ℚ) < 2) exponent
  have scale : 0 < 2 ^ exponent.toNat := by positivity
  obtain ⟨below, same, quarter, small⟩ : ∃ below : Nat,
      (if significand = binade then 1 else 2) = below ∧ (below : ℚ) / 4 = reach significand ∧
        0 < below ∧ below ≤ 4 * significand := by
    unfold reach
    split
    · exact ⟨1, rfl, by norm_num, by omega, by omega⟩
    · exact ⟨2, rfl, by norm_num, by omega, by omega⟩
  have small' : ((4 * significand - below : Nat) : ℚ) = 4 * significand - below := by
    rw [Nat.cast_sub small.2]
    norm_num
  simp only [interval, same, Nat.pow_eq]
  refine ⟨by positivity, ?_, ?_, ?_, ?_, ?_⟩
  · exact Nat.mul_lt_mul_of_pos_right (by omega) scale
  · exact Nat.mul_lt_mul_of_pos_right (by omega) scale
  · rw [parts]
    push_cast
    field_simp
  · rw [parts, ← quarter]
    push_cast [small']
    field_simp
  · rw [parts]
    push_cast
    field_simp
    ring

/-- A decimal in the interval of a number rounds to it. -/
theorem within_of_fits {fraction : ℚ} (filled : 0 < significand)
    (above : (interval significand exponent).FitsAbove fraction)
    (below : (interval significand exponent).FitsBelow fraction) :
    Within significand exponent fraction := by
  obtain ⟨-, -, -, -, low, high⟩ := interval_bounds exponent filled
  have even : (interval significand exponent).closed = true ↔ significand % 2 = 0 := by
    simp [interval]
  rw [Interval.FitsAbove, low, even] at above
  rw [Interval.FitsBelow, high, even] at below
  exact ⟨above, below⟩

theorem nearest?_seventeen (fits : Fits significand exponent) (filled : 0 < significand) :
    ((interval significand exponent).nearest? 17).isSome = true := by
  obtain ⟨positive, less, -, value, low, high⟩ := interval_bounds exponent filled
  apply Interval.nearest?_isSome positive
  have leading := Interval.magnitude_le positive (Nat.zero_lt_of_lt less)
  rw [value] at leading
  rw [low, high]
  have step := two_zpow_pos exponent
  have last : (10 : ℚ) ^ ((interval significand exponent).magnitude - (17 : Nat) + 1) * 10 ^ 16 =
      10 ^ (interval significand exponent).magnitude := by
    rw [← zpow_natCast (10 : ℚ) 16, ← zpow_add₀ (by norm_num)]
    congr 1
    omega
  have size : (significand : ℚ) < 2 ^ 53 := by
    have short := fits.short
    simp only [binade, Nat.pow_eq] at short
    exact_mod_cast short
  generalize (10 : ℚ) ^ ((interval significand exponent).magnitude - (17 : Nat) + 1) = unit at *
  generalize (10 : ℚ) ^ (interval significand exponent).magnitude = whole at *
  generalize (2 : ℚ) ^ exponent = width at *
  unfold reach
  split
  · rename_i edge
    have size' : (significand : ℚ) = 2 ^ 52 := by
      rw [edge]
      norm_num [binade]
    rw [size'] at leading ⊢
    nlinarith
  · nlinarith

theorem trimZeros_value (fuel : Nat) (decimal : Decimal) :
    (trimZeros fuel decimal).value = decimal.value := by
  induction fuel generalizing decimal with
  | zero => rfl
  | succ fuel ih =>
    rw [trimZeros]
    split
    · rename_i zero
      simp only [Bool.and_eq_true, decide_eq_true_eq] at zero
      rw [ih, Decimal.value, Decimal.value]
      have parts : (decimal.digits : ℚ) = 10 * (decimal.digits / 10 : Nat) := by
        exact_mod_cast (show decimal.digits = 10 * (decimal.digits / 10) by omega)
      rw [parts, zpow_add₀ (by norm_num), zpow_one]
      ring
    · rfl

/-- The shortest decimal of a number rounds to it. -/
theorem shortest_within (fits : Fits significand exponent) (filled : 0 < significand) :
    Within significand exponent (shortest significand exponent).value := by
  obtain ⟨positive, less, more, -, -, -⟩ := interval_bounds exponent filled
  have found : ((List.range 17).findSome? fun index =>
      (interval significand exponent).nearest? (index + 1)).isSome = true := by
    rw [List.findSome?_isSome_iff]
    exact ⟨16, by simp, nearest?_seventeen fits filled⟩
  obtain ⟨decimal, first⟩ := Option.isSome_iff_exists.mp found
  obtain ⟨index, -, near⟩ := List.exists_of_findSome?_eq_some first
  obtain ⟨above, below⟩ := Interval.fits_of_nearest? positive less more near
  have within := within_of_fits filled above below
  rw [shortest, trimZeros_value]
  simpa [first] using within

end Binary64

end LayoutMarkup
