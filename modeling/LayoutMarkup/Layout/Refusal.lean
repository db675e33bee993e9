import LayoutMarkup.Source.Position

/-! Why layout attributes cannot be converted. -/

namespace LayoutMarkup

inductive Refusal where
  | attributeValue (name value : String)
  | token (token breakpoint : String)
  | columns (value : Int) (breakpoint : String) (columns : Nat)
  | offset (value : Int) (breakpoint : String) (columns : Nat)
deriving DecidableEq

def Refusal.message : Refusal → String
  | .attributeValue name value =>
    "'" ++ value ++ "' is not a valid value for attribute '" ++ name ++ "'"
  | .token word breakpoint =>
    "'" ++ word ++ "' is not a valid value for breakpoint '" ++ breakpoint ++ "'"
  | .columns value breakpoint total =>
    "'" ++ toString value ++ "' is not a valid column value for breakpoint '" ++ breakpoint ++
      "' (expected 1..=" ++ toString total ++ ")"
  | .offset value breakpoint total =>
    "'" ++ toString value ++ "' is not a valid column offset for breakpoint '" ++ breakpoint ++
      "' (expected 0.." ++ toString total ++ ")"

/-- A refusal and the element that it is about. -/
structure LayoutError where
  refusal : Refusal
  tag : String
  position : Position
deriving DecidableEq

def LayoutError.message (error : LayoutError) : String :=
  "<" ++ error.tag ++ "> at " ++ error.position.render ++ ": " ++ error.refusal.message

end LayoutMarkup
