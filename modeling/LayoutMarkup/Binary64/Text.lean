import LayoutMarkup.Binary64.Shortest

/-! How numbers are written: as an argument in a template, and as part of a message. -/

namespace LayoutMarkup

namespace Decimal

def digitText (decimal : Decimal) : List Char := Nat.toDigits 10 decimal.digits

/-- The power of ten of the leading digit. -/
def leading (decimal : Decimal) : Int := decimal.exponent + decimal.digitText.length - 1

/-- All places written out, without an exponent. -/
def positional (decimal : Decimal) : List Char :=
  let digits := decimal.digitText
  let places := (-decimal.exponent).toNat
  if places = 0 then digits ++ List.replicate decimal.exponent.toNat '0'
  else if places < digits.length then
    digits.take (digits.length - places) ++ '.' :: digits.drop (digits.length - places)
  else '0' :: '.' :: (List.replicate (places - digits.length) '0' ++ digits)

/-- One digit before the point, and the power of ten behind an `e`. -/
def scientific (decimal : Decimal) : List Char :=
  let power := (toString decimal.leading).toList
  match decimal.digitText with
  | [] => []
  | [digit] => digit :: 'e' :: power
  | digit :: digits => digit :: '.' :: (digits ++ 'e' :: power)

end Decimal

namespace Binary64

def signed (negative : Bool) (text : List Char) : List Char :=
  if negative then '-' :: text else text

/-- The value of a number that is finite and whole. -/
def integer? (number : Binary64) : Option Int :=
  match number.view with
  | .finite negative significand exponent =>
    let scale := Nat.pow 2 (-exponent).toNat
    if significand % scale = 0 then
      let size : Int := significand / scale * Nat.pow 2 exponent.toNat
      some (if negative then -size else size)
    else none
  | _ => none

/-- The fewest digits that read back, written out in full. -/
def plain (number : Binary64) : List Char :=
  match number.view with
  | .notANumber => "NaN".toList
  | .infinite negative => signed negative "inf".toList
  | .finite negative significand exponent =>
    signed negative (if significand = 0 then ['0'] else (shortest significand exponent).positional)

/-- An argument is written as a whole number, held within a signed word, or else in full. -/
def argumentText (number : Binary64) : List Char :=
  match number.integer? with
  | some value => (toString (clampToWord value)).toList
  | none => number.plain

/-- Messages show a point in every finite number, and an exponent from `1e16` on and below `1e-4`. -/
def messageText (number : Binary64) : List Char :=
  match number.view with
  | .notANumber => "NaN".toList
  | .infinite negative => signed negative "inf".toList
  | .finite negative significand exponent =>
    signed negative <|
      if significand = 0 then "0.0".toList
      else
        let decimal := shortest significand exponent
        if decimal.leading < -4 || 16 ≤ decimal.leading then decimal.scientific
        else if decimal.exponent < 0 then decimal.positional
        else decimal.positional ++ ['.', '0']

end Binary64

end LayoutMarkup
