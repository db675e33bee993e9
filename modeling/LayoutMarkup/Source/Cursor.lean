import LayoutMarkup.Source.Position
import LayoutMarkup.Unicode.Class

/-! A cursor into source text: what has not been read yet, and the place reached. Every move drops
characters from the front and carries the place over them, so a cursor never goes back. -/

namespace LayoutMarkup

/-- The first place in `text` where `pattern` occurs, as the number of characters before it. -/
def firstOccurrence (pattern : List Char) : List Char → Option Nat
  | [] => if pattern.isEmpty then some 0 else none
  | c :: text =>
    if pattern.isPrefixOf (c :: text) then some 0
    else (firstOccurrence pattern text).map (· + 1)

structure Cursor where
  rest : List Char
  position : Position

namespace Cursor

def ofString (source : String) : Cursor := ⟨source.toList, .start⟩

def peek? (cursor : Cursor) : Option Char := cursor.rest.head?

def peekSecond? (cursor : Cursor) : Option Char := cursor.rest[1]?

def atEnd (cursor : Cursor) : Bool := cursor.rest.isEmpty

/-- Move over a number of characters, or to the end of a shorter rest. -/
def skip (cursor : Cursor) (count : Nat) : Cursor :=
  ⟨cursor.rest.drop count, cursor.position.after (cursor.rest.take count)⟩

/-- Move over the next character, if there is one. -/
def advance (cursor : Cursor) : Cursor := cursor.skip 1

/-- Whether a piece of text comes next. -/
def sees (cursor : Cursor) (text : List Char) : Bool := text.isPrefixOf cursor.rest

/-- Move over a piece of text if it comes next. -/
def eat? (cursor : Cursor) (text : List Char) : Option Cursor :=
  if cursor.sees text then some (cursor.skip text.length) else none

/-- The longest run of characters of one class that comes next. -/
def run (cursor : Cursor) (member : Char → Bool) : List Char := cursor.rest.takeWhile member

def skipRun (cursor : Cursor) (member : Char → Bool) : Cursor :=
  cursor.skip (cursor.run member).length

def skipBlank (cursor : Cursor) : Cursor := cursor.skipRun Unicode.isBlank

/-- Move over the first occurrence of `terminator`; gives the text before it as well. -/
def pastTerminator? (cursor : Cursor) (terminator : List Char) : Option (List Char × Cursor) :=
  (firstOccurrence terminator cursor.rest).map fun count =>
    (cursor.rest.take count, cursor.skip (count + terminator.length))

/-- What is before the next lexeme of a mustache: blanks, then at most one `~`. -/
def skipGap (cursor : Cursor) : Cursor :=
  let cursor := cursor.skipBlank
  (cursor.eat? ['~']).getD cursor

/-- Whether the mustache ends next. -/
def seesClose (cursor : Cursor) : Bool := cursor.sees ['}', '}'] || cursor.sees ['~', '}', '}']

/-- How many bytes of encoded source are left. -/
def bytesLeft (cursor : Cursor) : Nat := cursor.rest.foldr (fun c bytes => c.utf8Size + bytes) 0

theorem skip_zero (cursor : Cursor) : cursor.skip 0 = cursor := rfl

theorem skip_skip (cursor : Cursor) (first second : Nat) :
    (cursor.skip first).skip second = cursor.skip (first + second) := by
  simp [skip, List.drop_drop, List.take_add, Position.after_append]

theorem length_skip (cursor : Cursor) (count : Nat) :
    (cursor.skip count).rest.length = cursor.rest.length - count :=
  List.length_drop

theorem length_skip_le (cursor : Cursor) (count : Nat) :
    (cursor.skip count).rest.length ≤ cursor.rest.length := by
  rw [length_skip]; omega

theorem length_skipBlank_le (cursor : Cursor) :
    cursor.skipBlank.rest.length ≤ cursor.rest.length := cursor.length_skip_le _

theorem eat?_eq_some {cursor after : Cursor} {text : List Char}
    (eaten : cursor.eat? text = some after) :
    cursor.sees text = true ∧ after = cursor.skip text.length := by
  unfold eat? at eaten
  split at eaten
  · exact ⟨‹_›, (Option.some.inj eaten).symm⟩
  · cases eaten

theorem length_le_of_sees {cursor : Cursor} {text : List Char} (seen : cursor.sees text = true) :
    text.length ≤ cursor.rest.length :=
  (List.isPrefixOf_iff_prefix.mp seen).length_le

/-- Eating a piece of text leaves exactly that much less. -/
theorem length_of_eat? {cursor after : Cursor} {text : List Char}
    (eaten : cursor.eat? text = some after) :
    after.rest.length + text.length = cursor.rest.length := by
  obtain ⟨seen, rfl⟩ := eat?_eq_some eaten
  have bound := length_le_of_sees seen
  rw [length_skip]; omega

theorem length_skipGap_le (cursor : Cursor) : cursor.skipGap.rest.length ≤ cursor.rest.length := by
  unfold skipGap
  have blank := cursor.length_skipBlank_le
  cases eaten : cursor.skipBlank.eat? ['~'] with
  | none => simpa [eaten] using blank
  | some after =>
    have shorter := length_of_eat? eaten
    simp only [eaten, Option.getD_some]
    omega

end Cursor

end LayoutMarkup
