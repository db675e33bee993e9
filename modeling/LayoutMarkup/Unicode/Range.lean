/-! Runs of consecutive code points, the form in which the tables of character properties are kept. -/

namespace LayoutMarkup.Unicode

/-- The code points from the first to the second number, both included. -/
abbrev Range := Nat × Nat

/-- Whether a code point lies in one of the ranges. -/
def inRanges (ranges : List Range) (code : Nat) : Bool :=
  ranges.any fun range => range.1 ≤ code && code ≤ range.2

end LayoutMarkup.Unicode
