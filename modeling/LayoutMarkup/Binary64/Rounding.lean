import LayoutMarkup.Binary64.Basic
import LayoutMarkup.Digits

/-! The binary64 number nearest to a fraction, and to a decimal numeral. A tie goes to the even
significand, and what lies beyond the largest finite number becomes infinite. -/

namespace LayoutMarkup.Binary64

/-- The quotient rounded to the nearest natural number, a tie going to the even one. -/
def nearestQuotient (numerator denominator : Nat) : Nat :=
  let quotient := numerator / denominator
  let twice := 2 * (numerator % denominator)
  if twice < denominator then quotient
  else if denominator < twice then quotient + 1
  else if quotient % 2 = 0 then quotient else quotient + 1

/-- The natural number that is nearest to a natural number among those with 53 significant bits. It is
a binary64 number if it is below `2 ^ 1024`. -/
def nearestNatural (number : Nat) : Nat :=
  let unit := Nat.pow 2 (Nat.log2 number - 52)
  nearestQuotient number unit * unit

/-- A fraction over `2 ^ exponent`, as numerator and denominator. -/
def overPower (numerator denominator : Nat) (exponent : Int) : Nat × Nat :=
  if exponent < 0 then (numerator * Nat.pow 2 (-exponent).toNat, denominator)
  else (numerator, denominator * Nat.pow 2 exponent.toNat)

/-- The exponent with which a positive fraction has a significand of 53 bits, or the least one. -/
def exponentOf (numerator denominator : Nat) : Int :=
  let guess : Int := (Nat.log2 numerator : Int) - Nat.log2 denominator - 53
  let scaled := overPower numerator denominator guess
  let exponent := if 2 * binade ≤ scaled.1 / scaled.2 then guess + 1 else guess
  max exponent (-1074)

/-- The number nearest to a fraction. The bits of positive numbers are in the order of their values,
so that a significand rounded up to the next power of two carries into the exponent by itself. -/
def ofFraction (negative : Bool) (numerator denominator : Nat) : Binary64 :=
  if numerator = 0 then ofCode negative 0
  else
    let exponent := exponentOf numerator denominator
    let scaled := overPower numerator denominator exponent
    let code := (exponent + 1074).toNat * binade + nearestQuotient scaled.1 scaled.2
    ofCode negative (min code (exponentLimit * binade))

/-- The number nearest to the numeral with these digits before and behind the point. -/
def ofNumeral (negative : Bool) (whole decimals : List Char) : Binary64 :=
  ofFraction negative (digitsValue (whole ++ decimals)) (Nat.pow 10 decimals.length)

end LayoutMarkup.Binary64
