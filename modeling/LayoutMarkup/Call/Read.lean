import LayoutMarkup.Call.Basic
import LayoutMarkup.Lexeme.Read

/-! Reading calls. Lexemes are taken one by one while the calls that are still open wait on a stack,
so that calls may be nested to any depth. -/

namespace LayoutMarkup

/-- A call whose end has not been read, its arguments latest first. -/
structure OpenCall where
  path : Path
  start : Position
  params : List Expression
  pairs : List Pair
  /-- A key that waits for its value, and where it stands. -/
  key : Option (String × Position)

namespace OpenCall

def named (path : Path) (start : Position) : OpenCall := ⟨path, start, [], [], none⟩

/-- Take an argument: the value of the waiting key, or else a positional one. -/
def add (call : OpenCall) (value : Expression) : OpenCall :=
  match call.key with
  | some (key, start) =>
    { call with pairs := ⟨key, value, start, value.span.stop⟩ :: call.pairs, key := none }
  | none => { call with params := value :: call.params }

def hash (call : OpenCall) : Option Hash :=
  if call.pairs.isEmpty then none else some (.ofPairs call.pairs.reverse)

def finish (call : OpenCall) (stop : Position) : Call :=
  ⟨call.path, call.params.reverse, call.hash, call.start, stop⟩

end OpenCall

namespace Call

/-- What may come next: the name of a call that starts at a place, or more of an open call. -/
inductive Expecting where
  | callee (start : Position)
  | argument (call : OpenCall)

/-- How far the reading of a call has come; `outer` holds the calls around the current one. -/
structure Reading where
  expecting : Expecting
  outer : List OpenCall

namespace Reading

/-- What ends the current call: a parenthesis if it stands in another call, else the braces. -/
def terminator (reading : Reading) : Lexeme :=
  if reading.outer.isEmpty then .close else .closeParen

/-- The argument that a single lexeme is. -/
def atom? (placed : Placed) : Option Expression :=
  match placed.lexeme with
  | .path word => some (.path ⟨word, placed.span⟩)
  | .string value => some (.string value placed.span)
  | .number value => some (.number value placed.span)
  | .boolean value => some (.boolean value placed.span)
  | _ => none

/-- Take a lexeme where an argument has to stand. -/
def takeArgument (call : OpenCall) (outer : List OpenCall) (placed : Placed) :
    Except Fault Reading :=
  if placed.lexeme = .openParen then .ok ⟨.callee placed.span.start, call :: outer⟩
  else
    match atom? placed with
    | some value => .ok ⟨.argument (call.add value), outer⟩
    | none => .error ⟨.expectedExpression placed.lexeme, placed.span.start⟩

/-- Take a lexeme: either the whole call has been read, or the reading goes on. -/
def step (reading : Reading) (placed : Placed) : Except Fault (Call ⊕ Reading) :=
  match reading.expecting with
  | .callee start =>
    match placed.lexeme with
    | .path word =>
      .ok (.inr ⟨.argument (.named ⟨word, placed.span⟩ start), reading.outer⟩)
    | found => .error ⟨.expectedPath found, placed.span.start⟩
  | .argument call =>
    if call.key.isSome then (takeArgument call reading.outer placed).map .inr
    else if placed.lexeme = reading.terminator then
      let whole := call.finish placed.span.stop
      match reading.outer with
      | [] => .ok (.inl whole)
      | parent :: outer => .ok (.inr ⟨.argument (parent.add (.call whole)), outer⟩)
    else
      match placed.lexeme with
      | .key name =>
        .ok (.inr ⟨.argument { call with key := some (name, placed.span.start) }, reading.outer⟩)
      | _ =>
        if call.pairs.isEmpty then (takeArgument call reading.outer placed).map .inr
        else .error ⟨.positionalAfterHash, placed.span.start⟩

/-- Read on to the end of the outermost call. -/
def run (reading : Reading) (cursor : Cursor) : Except Fault (Call × Cursor) :=
  match _step : cursor.readLexeme with
  | (.error fault, _) => .error fault
  | (.ok placed, after) =>
    match reading.step placed with
    | .error fault => .error fault
    | .ok (.inl call) => .ok (call, after)
    | .ok (.inr reading) => run reading after
termination_by cursor.rest.length
decreasing_by exact Cursor.length_of_readLexeme _step

theorem length_of_run {reading : Reading} {cursor after : Cursor} {call : Call}
    (found : reading.run cursor = .ok (call, after)) :
    after.rest.length < cursor.rest.length := by
  fun_induction run reading cursor with
  | case1 => cases found
  | case2 => cases found
  | case3 reading cursor placed next step call' finished =>
    obtain ⟨-, rfl⟩ := Prod.mk.inj (Except.ok.inj found)
    exact Cursor.length_of_readLexeme step
  | case4 reading cursor placed next step reading' moved ih =>
    exact Nat.lt_trans (ih found) (Cursor.length_of_readLexeme step)

end Reading

end Call

namespace Cursor

/-- Read a call up to the end of its mustache; `start` is where its span begins. -/
def readCall (cursor : Cursor) (start : Position) : Except Fault (Call × Cursor) :=
  Call.Reading.run ⟨.callee start, []⟩ cursor

/-- Read the mustache whose braces come next. -/
def readMustache (cursor : Cursor) : Except Fault (Call × Cursor) :=
  (cursor.skip 2).readCall cursor.position

/-- Read a path on its own. -/
def readPath (cursor : Cursor) : Except Fault (Path × Cursor) :=
  match cursor.readLexeme with
  | (.error fault, _) => .error fault
  | (.ok placed, after) =>
    match placed.lexeme with
    | .path word => .ok (⟨word, placed.span⟩, after)
    | found => .error ⟨.expectedPath found, placed.span.start⟩

/-- Read the end of a mustache. -/
def readClose (cursor : Cursor) : Except Fault Cursor :=
  match cursor.readLexeme with
  | (.error fault, _) => .error fault
  | (.ok placed, after) =>
    if placed.lexeme = .close then .ok after
    else .error ⟨.expectedClose placed.lexeme, placed.span.start⟩

theorem length_of_readCall {cursor after : Cursor} {start : Position} {call : Call}
    (found : cursor.readCall start = .ok (call, after)) :
    after.rest.length < cursor.rest.length := Call.Reading.length_of_run found

theorem length_of_readMustache {cursor after : Cursor} {call : Call}
    (found : cursor.readMustache = .ok (call, after)) : after.rest.length < cursor.rest.length :=
  Nat.lt_of_lt_of_le (length_of_readCall found) (cursor.length_skip_le 2)

theorem length_of_readPath {cursor after : Cursor} {path : Path}
    (found : cursor.readPath = .ok (path, after)) : after.rest.length < cursor.rest.length := by
  unfold readPath at found
  split at found
  · cases found
  · rename_i step
    split at found
    · obtain ⟨-, rfl⟩ := Prod.mk.inj (Except.ok.inj found)
      exact length_of_readLexeme step
    · cases found

theorem length_of_readClose {cursor after : Cursor} (found : cursor.readClose = .ok after) :
    after.rest.length < cursor.rest.length := by
  unfold readClose at found
  split at found
  · cases found
  · rename_i step
    split at found
    · cases found
      exact length_of_readLexeme step
    · cases found

end Cursor

end LayoutMarkup
