/-! Places in source text. -/

namespace LayoutMarkup

/-- A place between two characters: lines count from one and columns from zero, in characters. -/
structure Position where
  line : Nat
  column : Nat
deriving DecidableEq

namespace Position

/-- The place of whatever no source text holds. -/
def nowhere : Position := ⟨0, 0⟩

/-- The start of a source text. -/
def start : Position := ⟨1, 0⟩

/-- The place behind a character; only the line feed begins a line. -/
def next (position : Position) (c : Char) : Position :=
  if c = '\n' then ⟨position.line + 1, 0⟩ else ⟨position.line, position.column + 1⟩

/-- The place behind a piece of text. -/
def after (position : Position) (text : List Char) : Position := text.foldl next position

def render (position : Position) : String :=
  toString position.line ++ ":" ++ toString position.column

theorem after_nil (position : Position) : position.after [] = position := rfl

theorem after_cons (position : Position) (c : Char) (text : List Char) :
    position.after (c :: text) = (position.next c).after text := rfl

theorem after_append (position : Position) (first second : List Char) :
    position.after (first ++ second) = (position.after first).after second :=
  List.foldl_append

end Position

/-- The stretch of source text that something was read from. -/
structure Span where
  start : Position
  stop : Position
deriving DecidableEq

namespace Span

/-- The span of whatever was made and not read. -/
def nowhere : Span := ⟨.nowhere, .nowhere⟩

def render (span : Span) : String := span.start.render ++ "-" ++ span.stop.render

end Span

end LayoutMarkup
