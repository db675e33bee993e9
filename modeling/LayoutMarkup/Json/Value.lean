/-! JSON documents. Numbers are kept as they are written, and a string is kept only if it is one: an
escape for half of a surrogate pair is well-formed, but it spells no character. -/

namespace LayoutMarkup.Json

/-- A number as it is written. -/
structure Numeral where
  negative : Bool
  whole : List Char
  /-- The digits behind the point, if there is a point. -/
  decimals : Option (List Char)
  /-- The sign and the digits of the exponent, if there is one. -/
  exponent : Option (Bool × List Char)

inductive Value where
  | null
  | boolean (value : Bool)
  | number (numeral : Numeral)
  | string (value : Option String)
  | array (items : List Value)
  | object (members : List (Option String × Value))

end LayoutMarkup.Json
