import LayoutMarkup.Proofs.Call.Extent
import LayoutMarkup.Proofs.Call.Spans
import LayoutMarkup.Proofs.Source.Relocation

/-! Calls that are read at another place. The same lexemes come out of the same text, and the same call is
made of them, with all of its spans moved. -/

namespace LayoutMarkup

section

variable (move : Position → Position)

def Path.relocate (path : Path) : Path := ⟨path.name, path.span.relocate move⟩

def Text.relocate (literal : Text) : Text := ⟨literal.chars, literal.span.relocate move⟩

mutual

/-- An argument with every place in it moved. -/
def Expression.relocate : Expression → Expression
  | .path name => .path (name.relocate move)
  | .string value span => .string value (span.relocate move)
  | .number value span => .number value (span.relocate move)
  | .boolean value span => .boolean value (span.relocate move)
  | .call inner => .call inner.relocate
  | .concat parts span => .concat (relocateParts parts) (span.relocate move)

def Call.relocate : Call → Call
  | ⟨path, params, hash, span⟩ =>
    ⟨path.relocate move, relocateParams params, relocateHash hash, span.relocate move⟩

def relocateParams : List Expression → List Expression
  | [] => []
  | value :: rest => value.relocate :: relocateParams rest

def relocateHash : Option Hash → Option Hash
  | none => none
  | some ⟨pairs, span⟩ => some ⟨relocatePairs pairs, span.relocate move⟩

def relocatePairs : List Pair → List Pair
  | [] => []
  | ⟨key, value, span⟩ :: rest => ⟨key, value.relocate, span.relocate move⟩ :: relocatePairs rest

def relocateParts : List Part → List Part
  | [] => []
  | .text literal :: rest => .text (literal.relocate move) :: relocateParts rest
  | .mustache call :: rest => .mustache call.relocate :: relocateParts rest

end

mutual

theorem Expression.withoutSpans_relocate :
    ∀ value : Expression, (value.relocate move).withoutSpans = value.withoutSpans
  | .path _ => rfl
  | .string _ _ => rfl
  | .number _ _ => rfl
  | .boolean _ _ => rfl
  | .call inner => congrArg Expression.call inner.withoutSpans_relocate
  | .concat parts _ => congrArg (Expression.concat · .nowhere) (partsWithoutSpans_relocate parts)

/-- Only the spans of a call are moved. -/
theorem Call.withoutSpans_relocate :
    ∀ call : Call, (call.relocate move).withoutSpans = call.withoutSpans
  | ⟨path, params, hash, _⟩ => by
    simp only [Call.relocate, Call.withoutSpans, paramsWithoutSpans_relocate params,
      hashWithoutSpans_relocate hash]
    rfl

theorem paramsWithoutSpans_relocate : ∀ params : List Expression,
    paramsWithoutSpans (relocateParams move params) = paramsWithoutSpans params
  | [] => rfl
  | value :: rest =>
    congrArg₂ List.cons value.withoutSpans_relocate (paramsWithoutSpans_relocate rest)

theorem hashWithoutSpans_relocate :
    ∀ hash : Option Hash, hashWithoutSpans (relocateHash move hash) = hashWithoutSpans hash
  | none => rfl
  | some ⟨pairs, _⟩ =>
    congrArg (fun pairs => some (Hash.mk pairs .nowhere)) (pairsWithoutSpans_relocate pairs)

theorem pairsWithoutSpans_relocate :
    ∀ pairs : List Pair, pairsWithoutSpans (relocatePairs move pairs) = pairsWithoutSpans pairs
  | [] => rfl
  | ⟨key, value, _⟩ :: rest =>
    congrArg₂ (fun value rest => Pair.mk key value .nowhere :: rest) value.withoutSpans_relocate
      (pairsWithoutSpans_relocate rest)

theorem partsWithoutSpans_relocate :
    ∀ parts : List Part, partsWithoutSpans (relocateParts move parts) = partsWithoutSpans parts
  | [] => rfl
  | .text literal :: rest =>
    congrArg (Part.text (.made literal.chars) :: ·) (partsWithoutSpans_relocate rest)
  | .mustache call :: rest =>
    congrArg₂ (fun call rest => Part.mustache call :: rest) call.withoutSpans_relocate
      (partsWithoutSpans_relocate rest)

end

def Pair.relocate (pair : Pair) : Pair :=
  ⟨pair.key, pair.value.relocate move, pair.span.relocate move⟩

def Placed.relocate (placed : Placed) : Placed := ⟨placed.lexeme, placed.span.relocate move⟩

/-- An open call with every place in it moved. -/
def OpenCall.relocate (call : OpenCall) : OpenCall where
  path := call.path.relocate move
  start := move call.start
  params := call.params.map (Expression.relocate move)
  pairs := call.pairs.map (Pair.relocate move)
  key := call.key.map (Prod.map id move)

namespace Call

def Expecting.relocate : Expecting → Expecting
  | .callee start => .callee (move start)
  | .argument call => .argument (call.relocate move)

def Reading.relocate (reading : Reading) : Reading :=
  ⟨reading.expecting.relocate move, reading.outer.map (OpenCall.relocate move)⟩

end Call

end

variable {move : Position → Position}

theorem relocateParams_eq_map (params : List Expression) :
    relocateParams move params = params.map (Expression.relocate move) := by
  induction params with
  | nil => rfl
  | cons value rest ih => exact congrArg (value.relocate move :: ·) ih

theorem relocatePairs_eq_map (pairs : List Pair) :
    relocatePairs move pairs = pairs.map (Pair.relocate move) := by
  induction pairs with
  | nil => rfl
  | cons pair rest ih =>
    obtain ⟨key, value, span⟩ := pair
    exact congrArg (Pair.relocate move ⟨key, value, span⟩ :: ·) ih

theorem Expression.span_relocate (value : Expression) :
    (value.relocate move).span = value.span.relocate move := by
  cases value with
  | call inner =>
    cases inner
    rfl
  | _ => rfl

/-- A hash with pairs lies with them. -/
theorem Hash.ofPairs_relocate {pairs : List Pair} (filled : pairs ≠ []) :
    relocateHash move (some (ofPairs pairs)) = some (ofPairs (pairs.map (Pair.relocate move))) := by
  simp only [ofPairs, List.head?_map, List.getLast?_map]
  cases head : pairs.head? with
  | none => exact absurd (List.head?_eq_none_iff.mp head) filled
  | some first =>
    cases last : pairs.getLast? with
    | none => exact absurd (List.getLast?_eq_none_iff.mp last) filled
    | some final =>
      simp only [relocateHash, relocatePairs_eq_map, Option.map_some]
      rfl

namespace OpenCall

theorem add_relocate (call : OpenCall) (value : Expression) :
    (call.add value).relocate move = (call.relocate move).add (value.relocate move) := by
  obtain ⟨path, start, params, pairs, key⟩ := call
  cases key with
  | none => rfl
  | some key => simp [add, relocate, Pair.relocate, Span.relocate, Expression.span_relocate]

theorem finish_relocate (call : OpenCall) (stop : Position) :
    (call.finish stop).relocate move = (call.relocate move).finish (move stop) := by
  have hash : relocateHash move call.hash = (call.relocate move).hash := by
    simp only [OpenCall.hash, relocate, List.isEmpty_map]
    split
    · rfl
    · rename_i filled
      rw [Hash.ofPairs_relocate (by simpa using filled), List.map_reverse]
  simp only [finish, Call.relocate, relocateParams_eq_map, hash, List.map_reverse]
  rfl

end OpenCall

/-- The lexemes of a text are the same wherever it begins. -/
theorem Cursor.readLexeme_relocate (carries : Position.Carries move) {cursor : Cursor}
    (begun : Position.start.UpTo cursor.position) : (cursor.relocate move).readLexeme =
      (relocateResult move (Placed.relocate move) cursor.readLexeme.1,
        cursor.readLexeme.2.relocate move) := by
  obtain ⟨gap, -, passed⟩ := cursor.exists_passes_skipGap
  have front : Position.start.UpTo cursor.skipGap.position := begun.trans (Reaches.upTo ⟨gap, passed⟩)
  have behind := fun count => skip_relocate carries front count
  simp only [readLexeme, skipGap_relocate carries begun]
  rw [rest_relocate]
  obtain ⟨result, count⟩ := Lexeme.read cursor.skipGap.rest
  cases result <;> simp only [behind] <;> rfl

namespace Call.Reading

theorem atom?_relocate (placed : Placed) :
    atom? (placed.relocate move) = (atom? placed).map (Expression.relocate move) := by
  obtain ⟨lexeme, span⟩ := placed
  cases lexeme <;> rfl

theorem takeArgument_relocate (call : OpenCall) (outer : List OpenCall) (placed : Placed) :
    takeArgument (call.relocate move) (outer.map (OpenCall.relocate move)) (placed.relocate move) =
      relocateResult move (relocate move) (takeArgument call outer placed) := by
  unfold takeArgument
  rw [atom?_relocate, show (placed.relocate move).lexeme = placed.lexeme from rfl]
  split
  · rfl
  · cases atom? placed with
    | none => rfl
    | some value =>
      simp only [Option.map_some, ← OpenCall.add_relocate]
      rfl

theorem terminator_relocate (move : Position → Position) (reading : Reading) :
    (reading.relocate move).terminator = reading.terminator := by
  simp [terminator, relocate]

/-- A lexeme does the same to a reading wherever they are. -/
theorem step_relocate (reading : Reading) (placed : Placed) :
    (reading.relocate move).step (placed.relocate move) =
      relocateResult move (Sum.map (Call.relocate move) (relocate move)) (reading.step placed) := by
  have sameEnd := terminator_relocate move reading
  obtain ⟨expecting, outer⟩ := reading
  obtain ⟨lexeme, span⟩ := placed
  cases expecting with
  | callee start => cases lexeme <;> rfl
  | argument call =>
    have took : (takeArgument (call.relocate move) (outer.map (OpenCall.relocate move))
          (Placed.relocate move ⟨lexeme, span⟩)).map Sum.inr =
        relocateResult move (Sum.map (Call.relocate move) (relocate move))
          ((takeArgument call outer ⟨lexeme, span⟩).map .inr) := by
      rw [takeArgument_relocate]
      cases takeArgument call outer ⟨lexeme, span⟩ <;> rfl
    have waits : (call.relocate move).key.isSome = call.key.isSome := Option.isSome_map
    have early : (call.relocate move).pairs.isEmpty = call.pairs.isEmpty := List.isEmpty_map
    have finished : (call.relocate move).finish (move span.stop) = (call.finish span.stop).relocate move :=
      (call.finish_relocate span.stop).symm
    simp only [step, sameEnd]
    simp only [relocate, Expecting.relocate, waits, early]
    by_cases waiting : call.key.isSome = true
    · rw [if_pos waiting, if_pos waiting]
      exact took
    rw [if_neg waiting, if_neg waiting]
    by_cases ended : lexeme = terminator ⟨.argument call, outer⟩
    · refine (if_pos ended).trans ?_
      rw [if_pos ended]
      cases outer with
      | nil => exact congrArg (fun call => Except.ok (Sum.inl call)) finished
      | cons parent outer =>
        have added : (parent.relocate move).add (.call ((call.relocate move).finish (move span.stop))) =
            (parent.add (.call (call.finish span.stop))).relocate move := by
          rw [finished, OpenCall.add_relocate]
          rfl
        exact congrArg (fun call => Except.ok (Sum.inr (Reading.mk (.argument call)
          (outer.map (OpenCall.relocate move))))) added
    · refine (if_neg ended).trans ?_
      rw [if_neg ended]
      have positional : (if call.pairs.isEmpty = true then
            (takeArgument (call.relocate move) (outer.map (OpenCall.relocate move))
              (Placed.relocate move ⟨lexeme, span⟩)).map Sum.inr
          else .error ⟨.positionalAfterHash, move span.start⟩) =
          relocateResult move (Sum.map (Call.relocate move) (relocate move))
            (if call.pairs.isEmpty = true then (takeArgument call outer ⟨lexeme, span⟩).map .inr
            else .error ⟨.positionalAfterHash, span.start⟩) := by
        split
        · exact took
        · rfl
      cases lexeme with
      | key name => rfl
      | _ => exact positional

theorem run_relocate (carries : Position.Carries move) (reading : Reading) {cursor : Cursor}
    (begun : Position.start.UpTo cursor.position) :
    (reading.relocate move).run (cursor.relocate move) =
      relocateResult move (Prod.map (Call.relocate move) (Cursor.relocate move))
        (reading.run cursor) := by
  fun_induction run reading cursor with
  | case1 reading cursor fault after step =>
    rw [run_eq, Cursor.readLexeme_relocate carries begun, step]
    rfl
  | case2 reading cursor placed after step fault refused =>
    rw [run_eq, Cursor.readLexeme_relocate carries begun, step]
    simp only [relocateResult, step_relocate, refused]
  | case3 reading cursor placed after step call finished =>
    rw [run_eq, Cursor.readLexeme_relocate carries begun, step]
    simp only [relocateResult, step_relocate, finished]
    rfl
  | case4 reading cursor placed after step reading' moved ih =>
    have reached := Cursor.reaches_of_readLexeme step
    rw [run_eq, Cursor.readLexeme_relocate carries begun, step]
    simp only [relocateResult, step_relocate, moved]
    exact ih (begun.trans reached.upTo)

end Call.Reading

namespace Cursor

variable {cursor : Cursor} (carries : Position.Carries move)
  (begun : Position.start.UpTo cursor.position)

include carries begun

theorem readCall_relocate (start : Position) : (cursor.relocate move).readCall (move start) =
    relocateResult move (Prod.map (Call.relocate move) (relocate move)) (cursor.readCall start) :=
  Call.Reading.run_relocate carries ⟨.callee start, []⟩ begun

theorem readMustache_relocate : (cursor.relocate move).readMustache =
    relocateResult move (Prod.map (Call.relocate move) (relocate move)) cursor.readMustache := by
  have behind : Position.start.UpTo (cursor.skip 2).position := begun.trans (cursor.reaches_skip 2).upTo
  rw [readMustache, skip_relocate carries begun]
  exact readCall_relocate carries behind cursor.position

theorem readPath_relocate : (cursor.relocate move).readPath =
    relocateResult move (Prod.map (Path.relocate move) (relocate move)) cursor.readPath := by
  rw [readPath, readLexeme_relocate carries begun, readPath]
  obtain ⟨result, after⟩ := cursor.readLexeme
  cases result with
  | error fault => rfl
  | ok placed =>
    obtain ⟨lexeme, span⟩ := placed
    cases lexeme <;> rfl

theorem readClose_relocate : (cursor.relocate move).readClose =
    relocateResult move (relocate move) cursor.readClose := by
  rw [readClose, readLexeme_relocate carries begun, readClose]
  obtain ⟨result, after⟩ := cursor.readLexeme
  cases result with
  | error fault => rfl
  | ok placed =>
    obtain ⟨lexeme, span⟩ := placed
    cases lexeme <;> rfl

end Cursor

end LayoutMarkup
