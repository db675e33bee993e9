import LayoutMarkup.Lexeme.Read

/-! Cursors driven from outside, one move after the other. A move answers, and a failing one does not
end the row. -/

namespace LayoutMarkup.Cursor

inductive Move where
  | advance
  /-- Go over a piece of text if it comes next. -/
  | eat (text : List Char)
  /-- Go over a piece of text that has to come next. -/
  | expect (text : List Char)
  | skipBlank
  | takeWhile (member : Char → Bool)
  | takeUntil (terminator : List Char)
  /-- Go over blanks and tell whether the mustache ends behind them. -/
  | seeClose
  | readLexeme

inductive Answer where
  | nothing
  | char (next : Option Char)
  | flag (holds : Bool)
  | text (taken : List Char)
  | lexeme (placed : Placed)
  | fault (fault : Fault)

def perform (cursor : Cursor) : Move → Answer × Cursor
  | .advance => (.char cursor.peek?, cursor.advance)
  | .eat text => (.flag (cursor.sees text), (cursor.eat? text).getD cursor)
  | .expect text =>
    match cursor.eat? text with
    | some after => (.nothing, after)
    | none => (.fault (cursor.fault (.expectedText text)), cursor)
  | .skipBlank => (.nothing, cursor.skipBlank)
  | .takeWhile member => (.text (cursor.run member), cursor.skipRun member)
  | .takeUntil terminator =>
    match cursor.pastTerminator? terminator with
    | some (before, after) => (.text before, after)
    | none => (.fault (cursor.fault (.missingTerminator terminator)), cursor)
  | .seeClose => (.flag cursor.skipBlank.seesClose, cursor.skipBlank)
  | .readLexeme =>
    match cursor.readLexeme with
    | (.ok placed, after) => (.lexeme placed, after)
    | (.error fault, after) => (.fault fault, after)

/-- Where a row of moves leaves a cursor. -/
def performAll (cursor : Cursor) (moves : List Move) : Cursor :=
  moves.foldl (fun cursor move => (cursor.perform move).2) cursor

end LayoutMarkup.Cursor
