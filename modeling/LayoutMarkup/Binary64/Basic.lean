/-! Numbers of the IEEE 754 binary64 format, kept as their bits so that equality is equality of
representations. A finite number is a natural number times a power of two. -/

namespace LayoutMarkup

structure Binary64 where
  bits : UInt64
deriving DecidableEq

namespace Binary64

/-- What the bits of a number say. -/
inductive View where
  | notANumber
  | infinite (negative : Bool)
  /-- The number `significand * 2 ^ exponent` with its sign. -/
  | finite (negative : Bool) (significand : Nat) (exponent : Int)
deriving DecidableEq

/-- How many numbers share one exponent: the significand has 52 bits behind its leading one. -/
def binade : Nat := Nat.pow 2 52

/-- The exponent field of infinities and of what is not a number. -/
def exponentLimit : Nat := 2047

/-- The sign bit alone. -/
def signBit : Nat := Nat.pow 2 63

def view (number : Binary64) : View :=
  let code := number.bits.toNat
  let negative := signBit ≤ code
  let field := code / binade % (exponentLimit + 1)
  let fraction := code % binade
  if field = exponentLimit then
    if fraction = 0 then .infinite negative else .notANumber
  else if field = 0 then .finite negative fraction (-1074)
  else .finite negative (binade + fraction) (field - 1075)

/-- The number with the given sign whose other bits spell `code`. -/
def ofCode (negative : Bool) (code : Nat) : Binary64 :=
  ⟨UInt64.ofNat (if negative then signBit + code else code)⟩

end Binary64

end LayoutMarkup
