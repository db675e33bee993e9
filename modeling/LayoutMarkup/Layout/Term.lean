/-! Layout terms and breakpoints, the vocabulary that projects may extend. -/

namespace LayoutMarkup

/-- A term of the layout language, set on an element or within a breakpoint. -/
inductive Term where
  /-- A term that is present or not: `vertical`. -/
  | simple (name : String)
  /-- A term that takes one of some values: `align="center"`. -/
  | complex (name : String) (values : List String)
deriving DecidableEq

namespace Term

def name : Term → String
  | .simple name => name
  | .complex name _ => name

def values? : Term → Option (List String)
  | .simple _ => none
  | .complex _ values => some values

/-- Whether a term takes a value; a simple one takes none. -/
def allows (term : Term) (value : String) : Bool :=
  match term with
  | .simple _ => false
  | .complex _ values => values.contains value

end Term

/-- A tier of screen widths. -/
structure Breakpoint where
  /-- The attribute that sets terms for the tier, and its part of class names. -/
  short : String
  name : Option String
  /-- The least width in pixels. -/
  start : Option Nat
deriving DecidableEq

end LayoutMarkup
