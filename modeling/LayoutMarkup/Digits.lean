/-! Natural numbers as decimal digits, the integers that a signed word of 64 bits can hold, and the
counts that an unsigned word of 32 bits can hold. -/

namespace LayoutMarkup

/-- The natural number that a run of decimal digits spells. -/
def digitsValue (digits : List Char) : Nat :=
  digits.foldl (fun value digit => 10 * value + (digit.toNat - '0'.toNat)) 0

/-- How many decimal digits a natural number has; zero has none. -/
def digitCount (number : Nat) : Nat :=
  if number = 0 then 0 else (Nat.toDigits 10 number).length

/-- The least integer in a signed word. -/
def wordLow : Int := -(Nat.pow 2 63)

/-- The largest integer in a signed word. -/
def wordHigh : Int := (Nat.pow 2 63 : Int) - 1

/-- The integer of a signed word that is nearest to an integer. -/
def clampToWord (value : Int) : Int := max wordLow (min value wordHigh)

/-- The largest number of columns or pixels. -/
def largestCount : Nat := Nat.pow 2 32 - 1

/-- An integer as a count, unless it is negative or too large for one. -/
def toCount? (value : Int) : Option Nat :=
  if 0 ≤ value ∧ value ≤ largestCount then some value.toNat else none

end LayoutMarkup
