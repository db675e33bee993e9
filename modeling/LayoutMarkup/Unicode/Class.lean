import LayoutMarkup.Unicode.Alphabetic
import LayoutMarkup.Unicode.Numeric
import LayoutMarkup.Unicode.Extending
import LayoutMarkup.Unicode.Invisible

/-! The character classes that the template language and its quoted texts rest on. ASCII is decided
without a table; beyond it each class is a property of the Unicode character database. -/

namespace LayoutMarkup.Unicode

/-- The White_Space property. -/
def blankRanges : List Range :=
  [(0x9, 0xD), (0x20, 0x20), (0x85, 0x85), (0xA0, 0xA0), (0x1680, 0x1680), (0x2000, 0x200A),
   (0x2028, 0x2029), (0x202F, 0x202F), (0x205F, 0x205F), (0x3000, 0x3000)]

/-- Blank characters separate attributes, arguments and breakpoint tokens. -/
def isBlank (c : Char) : Bool := inRanges blankRanges c.toNat

def isAlphabetic (c : Char) : Bool :=
  if c.toNat < 0x80 then c.isAlpha else inRanges alphabeticRanges c.toNat

def isNumeric (c : Char) : Bool :=
  if c.toNat < 0x80 then c.isDigit else inRanges numericRanges c.toNat

def isAlphanumeric (c : Char) : Bool := isAlphabetic c || isNumeric c

/-- Whether a character joins the one before it into one grapheme. -/
def isExtending (c : Char) : Bool := inRanges extendingRanges c.toNat

/-- Whether a character shows as itself: the space does, other separators and controls do not. -/
def isVisible (c : Char) : Bool :=
  if c.toNat < 0x80 then 0x20 ≤ c.toNat && c.toNat ≠ 0x7F else !inRanges invisibleRanges c.toNat

end LayoutMarkup.Unicode
