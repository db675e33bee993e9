import LayoutMarkup.Binary64.Basic
import LayoutMarkup.Digits

/-! The shortest decimal that reads back as a binary64 number. For one digit, two digits and so on,
the two neighbours of the number among the decimals of that many digits are tried; the first that
lies in the interval of what rounds to the number is the answer. -/

namespace LayoutMarkup

/-- The number `digits * 10 ^ exponent`. -/
structure Decimal where
  digits : Nat
  exponent : Int
deriving DecidableEq

namespace Binary64

/-- A positive number with the bounds of the interval that rounds to it, over one denominator. -/
structure Interval where
  value : Nat
  low : Nat
  high : Nat
  denominator : Nat
  /-- Whether the bounds themselves round to the number. -/
  closed : Bool

/-- Half a step lies on either side, but only a quarter below a power of two, where steps widen. -/
def interval (significand : Nat) (exponent : Int) : Interval :=
  let below := if significand = binade then 1 else 2
  let scale := Nat.pow 2 exponent.toNat
  { value := 4 * significand * scale
    low := (4 * significand - below) * scale
    high := (4 * significand + 2) * scale
    denominator := 4 * Nat.pow 2 (-exponent).toNat
    closed := significand % 2 = 0 }

namespace Interval

/-- The power of ten of the value's leading digit. -/
def magnitude (interval : Interval) : Int :=
  if interval.denominator ≤ interval.value then
    (digitCount (interval.value / interval.denominator) : Int) - 1
  else
    -(digitCount ((interval.denominator - 1) / interval.value) : Int)

/-- The decimal of `count` digits in the interval that is nearest to the value, if there is one;
half way between two the larger is taken. -/
def nearest? (interval : Interval) (count : Nat) : Option Decimal :=
  let exponent := interval.magnitude - count + 1
  let scale := Nat.pow 10 (-exponent).toNat
  let unit := interval.denominator * Nat.pow 10 exponent.toNat
  let digits := interval.value * scale / unit
  let left := interval.value * scale % unit
  let low := interval.low * scale
  let high := interval.high * scale
  let lowFits := low < digits * unit || (interval.closed && low = digits * unit)
  let highFits := (digits + 1) * unit < high || (interval.closed && (digits + 1) * unit = high)
  if lowFits && !(highFits && unit ≤ 2 * left) then some ⟨digits, exponent⟩
  else if highFits then some ⟨digits + 1, exponent⟩
  else none

end Interval

/-- The same number without zeros at the end of its digits. -/
def trimZeros : Nat → Decimal → Decimal
  | 0, decimal => decimal
  | fuel + 1, decimal =>
    if decimal.digits ≠ 0 && decimal.digits % 10 = 0 then
      trimZeros fuel ⟨decimal.digits / 10, decimal.exponent + 1⟩
    else decimal

/-- The shortest decimal for a positive number; seventeen digits are always enough. -/
def shortest (significand : Nat) (exponent : Int) : Decimal :=
  let range := interval significand exponent
  let found := (List.range 17).findSome? fun index => range.nearest? (index + 1)
  trimZeros 17 (found.getD ⟨0, 0⟩)

end Binary64

end LayoutMarkup
