import LayoutMarkup.Proofs.Call.Demands
import LayoutMarkup.Proofs.Call.Extent
import LayoutMarkup.Proofs.Source.Order

/-! Where the parts of a call stand. In a call that was read the name, the positional arguments and the
named ones follow each other within the span of the call, and so on in every call that is an argument;
the value of a named argument lies within it, and a hash reaches from its first pair to its last. -/

namespace LayoutMarkup

def hashPairs : Option Hash → List Pair
  | none => []
  | some hash => hash.pairs

mutual

/-- What an argument holds stands in its span, one thing after the other. -/
def Expression.IsPlaced : Expression → Prop
  | .path _ | .string _ _ | .number _ _ | .boolean _ _ => True
  | .call inner => inner.IsPlaced
  | .concat parts span => InOrder span.start (parts.map Part.span) span.stop ∧ PartsArePlaced parts

def Call.IsPlaced : Call → Prop
  | ⟨path, params, hash, span⟩ =>
    InOrder span.start
        (path.span :: (params.map Expression.span ++ (hashPairs hash).map Pair.span)) span.stop ∧
      ParamsArePlaced params ∧ HashIsPlaced hash

def ParamsArePlaced : List Expression → Prop
  | [] => True
  | value :: rest => value.IsPlaced ∧ ParamsArePlaced rest

def HashIsPlaced : Option Hash → Prop
  | none => True
  | some ⟨pairs, span⟩ => span = (Hash.ofPairs pairs).span ∧ PairsArePlaced pairs

def PairsArePlaced : List Pair → Prop
  | [] => True
  | ⟨_, value, span⟩ :: rest =>
    InOrder span.start [value.span] span.stop ∧ value.IsPlaced ∧ PairsArePlaced rest

def PartsArePlaced : List Part → Prop
  | [] => True
  | .text _ :: rest => PartsArePlaced rest
  | .mustache call :: rest => call.IsPlaced ∧ PartsArePlaced rest

end

mutual

/-- Every span in an argument, its own first. -/
def Expression.spans : Expression → List Span
  | .path name => [name.span]
  | .string _ span | .number _ span | .boolean _ span => [span]
  | .call inner => inner.spans
  | .concat parts span => span :: partsSpans parts

def Call.spans : Call → List Span
  | ⟨path, params, hash, span⟩ => span :: path.span :: (paramsSpans params ++ hashSpans hash)

def paramsSpans : List Expression → List Span
  | [] => []
  | value :: rest => value.spans ++ paramsSpans rest

def hashSpans : Option Hash → List Span
  | none => []
  | some ⟨pairs, span⟩ => span :: pairsSpans pairs

def pairsSpans : List Pair → List Span
  | [] => []
  | ⟨_, value, span⟩ :: rest => span :: (value.spans ++ pairsSpans rest)

def partsSpans : List Part → List Span
  | [] => []
  | .text literal :: rest => literal.span :: partsSpans rest
  | .mustache call :: rest => call.spans ++ partsSpans rest

end

/-- All of some spans start no later than they end. -/
def SpansAreOrdered (spans : List Span) : Prop := ∀ span ∈ spans, span.IsOrdered

theorem spansAreOrdered_cons {span : Span} {rest : List Span} :
    SpansAreOrdered (span :: rest) ↔ span.IsOrdered ∧ SpansAreOrdered rest := List.forall_mem_cons

theorem spansAreOrdered_append {first second : List Span} :
    SpansAreOrdered (first ++ second) ↔ SpansAreOrdered first ∧ SpansAreOrdered second :=
  List.forall_mem_append

theorem spansAreOrdered_nil : SpansAreOrdered [] := List.forall_mem_nil _

theorem InOrder.spansAreOrdered {first last : Position} {spans : List Span}
    (ordered : InOrder first spans last) : SpansAreOrdered spans :=
  fun _ member => (ordered.of_mem member).2.1

theorem Hash.ofPairs_eq (pairs : List Pair) : ofPairs pairs = ⟨pairs, (ofPairs pairs).span⟩ := by
  unfold ofPairs
  split <;> rfl

/-- The span of a hash is ordered when its pairs are in order. -/
theorem Hash.isOrdered_ofPairs {pairs : List Pair} {first last : Position}
    (ordered : InOrder first (pairs.map Pair.span) last) : (ofPairs pairs).span.IsOrdered := by
  unfold ofPairs
  split
  · rename_i one two head final
    exact ordered.isOrdered_around (by simp [head]) (by simp [final])
  · exact Position.upTo_refl _

mutual

theorem Expression.spansAreOrdered : ∀ value : Expression, value.IsPlaced → value.span.IsOrdered →
    SpansAreOrdered value.spans
  | .path _, _, own => spansAreOrdered_cons.mpr ⟨own, spansAreOrdered_nil⟩
  | .string _ _, _, own => spansAreOrdered_cons.mpr ⟨own, spansAreOrdered_nil⟩
  | .number _ _, _, own => spansAreOrdered_cons.mpr ⟨own, spansAreOrdered_nil⟩
  | .boolean _ _, _, own => spansAreOrdered_cons.mpr ⟨own, spansAreOrdered_nil⟩
  | .call inner, placed, _ => inner.spansAreOrdered placed
  | .concat parts _, ⟨ordered, placed⟩, own =>
    spansAreOrdered_cons.mpr ⟨own, partsSpans_areOrdered parts placed ordered.spansAreOrdered⟩

/-- In a call whose parts stand in it in order, every span is ordered. -/
theorem Call.spansAreOrdered : ∀ call : Call, call.IsPlaced → SpansAreOrdered call.spans
  | ⟨_, params, hash, _⟩, ⟨ordered, positional, named⟩ => by
    obtain ⟨word, others⟩ := spansAreOrdered_cons.mp ordered.spansAreOrdered
    obtain ⟨values, keyed⟩ := spansAreOrdered_append.mp others
    have pairs := ordered.sublist ((List.sublist_append_right _ _).cons _)
    rw [Call.spans, spansAreOrdered_cons, spansAreOrdered_cons, spansAreOrdered_append]
    exact ⟨ordered.upTo, word, paramsSpans_areOrdered params positional values,
      hashSpans_areOrdered hash named pairs⟩

theorem paramsSpans_areOrdered : ∀ params : List Expression, ParamsArePlaced params →
    SpansAreOrdered (params.map Expression.span) → SpansAreOrdered (paramsSpans params)
  | [], _, _ => spansAreOrdered_nil
  | value :: rest, ⟨here, others⟩, ordered =>
    let ⟨own, behind⟩ := spansAreOrdered_cons.mp ordered
    spansAreOrdered_append.mpr
      ⟨value.spansAreOrdered here own, paramsSpans_areOrdered rest others behind⟩

theorem hashSpans_areOrdered : ∀ (hash : Option Hash) {first last : Position}, HashIsPlaced hash →
    InOrder first ((hashPairs hash).map Pair.span) last → SpansAreOrdered (hashSpans hash)
  | none, _, _, _, _ => spansAreOrdered_nil
  | some ⟨pairs, _⟩, _, _, ⟨around, placed⟩, ordered =>
    spansAreOrdered_cons.mpr
      ⟨around ▸ Hash.isOrdered_ofPairs ordered, pairsSpans_areOrdered pairs placed⟩

theorem pairsSpans_areOrdered : ∀ pairs : List Pair, PairsArePlaced pairs →
    SpansAreOrdered (pairsSpans pairs)
  | [], _ => spansAreOrdered_nil
  | ⟨_, value, _⟩ :: rest, ⟨⟨begins, own, ends⟩, here, others⟩ =>
    spansAreOrdered_cons.mpr ⟨begins.trans (own.trans ends),
      spansAreOrdered_append.mpr ⟨value.spansAreOrdered here own, pairsSpans_areOrdered rest others⟩⟩

theorem partsSpans_areOrdered : ∀ parts : List Part, PartsArePlaced parts →
    SpansAreOrdered (parts.map Part.span) → SpansAreOrdered (partsSpans parts)
  | [], _, _ => spansAreOrdered_nil
  | .text _ :: rest, others, ordered =>
    let ⟨own, behind⟩ := spansAreOrdered_cons.mp ordered
    spansAreOrdered_cons.mpr ⟨own, partsSpans_areOrdered rest others behind⟩
  | .mustache call :: rest, ⟨here, others⟩, ordered =>
    let ⟨_, behind⟩ := spansAreOrdered_cons.mp ordered
    spansAreOrdered_append.mpr
      ⟨call.spansAreOrdered here, partsSpans_areOrdered rest others behind⟩

end

theorem paramsArePlaced_append {first second : List Expression} :
    ParamsArePlaced (first ++ second) ↔ ParamsArePlaced first ∧ ParamsArePlaced second := by
  induction first with
  | nil => simp [ParamsArePlaced]
  | cons value rest ih => simp [ParamsArePlaced, ih, and_assoc]

theorem pairsArePlaced_append {first second : List Pair} :
    PairsArePlaced (first ++ second) ↔ PairsArePlaced first ∧ PairsArePlaced second := by
  induction first with
  | nil => simp [PairsArePlaced]
  | cons pair rest ih =>
    obtain ⟨key, value, span⟩ := pair
    simp [PairsArePlaced, ih, and_assoc]

theorem partsArePlaced_append {first second : List Part} :
    PartsArePlaced (first ++ second) ↔ PartsArePlaced first ∧ PartsArePlaced second := by
  induction first with
  | nil => simp [PartsArePlaced]
  | cons part rest ih => cases part <;> simp [PartsArePlaced, ih, and_assoc]

/-- A lexeme stands behind the cursor that reads it and ends where the cursor stands then. -/
theorem Cursor.span_of_readLexeme {cursor after : Cursor} {placed : Placed}
    (found : cursor.readLexeme = (.ok placed, after)) :
    cursor.position.UpTo placed.span.start ∧ placed.span.IsOrdered ∧
      placed.span.stop = after.position := by
  obtain ⟨gap, -, front⟩ := cursor.exists_passes_skipGap
  simp only [readLexeme] at found
  split at found
  · cases found
    exact ⟨Reaches.upTo ⟨gap, front⟩, (reaches_skip _ _).upTo, rfl⟩
  · simp at found

namespace OpenCall

/-- The spans of the name and of the arguments so far. -/
def shown (call : OpenCall) : List Span :=
  call.path.span :: (call.params.reverse.map Expression.span ++ call.pairs.reverse.map Pair.span)

/-- Up to where the arguments so far reach at most: up to a key that waits for its value, if one does. -/
def edge (call : OpenCall) (place : Position) : Position :=
  match call.key with
  | some (_, start) => start
  | none => place

/-- Whether an argument may come next: a value for a key, or one more before all keys. -/
def IsFree (call : OpenCall) : Prop := call.key.isSome = true ∨ call.pairs.isEmpty = true

/-- What holds of an open call that has been read up to a place. -/
structure IsPlaced (call : OpenCall) (place : Position) : Prop where
  ordered : InOrder call.start call.shown (call.edge place)
  reached : (call.edge place).UpTo place
  params : ParamsArePlaced call.params.reverse
  pairs : PairsArePlaced call.pairs.reverse

variable {call : OpenCall} {place : Position}

theorem IsPlaced.start_upTo (placed : call.IsPlaced place) : call.start.UpTo place :=
  placed.ordered.upTo.trans placed.reached

theorem IsPlaced.of_later {later : Position} (placed : call.IsPlaced place) (after : place.UpTo later) :
    call.IsPlaced later := by
  obtain ⟨ordered, reached, params, pairs⟩ := placed
  unfold edge at ordered reached
  cases key : call.key with
  | none =>
    rw [key] at ordered reached
    exact ⟨by simpa [edge, key] using ordered.of_later after,
      by simpa [edge, key] using later.upTo_refl, params, pairs⟩
  | some waiting =>
    rw [key] at ordered reached
    exact ⟨by simpa [edge, key] using ordered, by simpa [edge, key] using reached.trans after,
      params, pairs⟩

/-- An argument behind the place that has been reached is one more of the call's. -/
theorem IsPlaced.add {value : Expression} (placed : call.IsPlaced place) (free : call.IsFree)
    (behind : place.UpTo value.span.start) (own : value.span.IsOrdered) (inside : value.IsPlaced) :
    (call.add value).IsPlaced value.span.stop := by
  obtain ⟨path, start, params, pairs, key⟩ := call
  obtain ⟨ordered, reached, positional, named⟩ := placed
  cases key with
  | none =>
    obtain rfl : pairs = [] := by simpa [IsFree] using free
    simp only [shown, edge, List.reverse_nil, List.map_nil, List.append_nil] at ordered
    refine ⟨?_, Position.upTo_refl _, ?_, named⟩
    · simpa [shown, edge, OpenCall.add] using ordered.concat behind own
    · simpa [OpenCall.add, paramsArePlaced_append, ParamsArePlaced] using ⟨positional, inside⟩
  | some waiting =>
    obtain ⟨word, begun⟩ := waiting
    simp only [shown, edge] at ordered reached
    have front : begun.UpTo value.span.start := reached.trans behind
    have pair : Span.IsOrdered ⟨begun, value.span.stop⟩ := front.trans own
    refine ⟨?_, Position.upTo_refl _, positional, ?_⟩
    · simpa [shown, edge, OpenCall.add] using ordered.concat begun.upTo_refl pair
    · simp only [OpenCall.add, List.reverse_cons, pairsArePlaced_append, PairsArePlaced]
      exact ⟨named, ⟨front, own, Position.upTo_refl _⟩, inside, trivial⟩

/-- The call that is made of an open one when its end has been read. -/
theorem IsPlaced.finish {stop : Position} (placed : call.IsPlaced place) (idle : call.key = none)
    (ends : place.UpTo stop) : (call.finish stop).IsPlaced := by
  obtain ⟨path, start, params, pairs, key⟩ := call
  obtain ⟨ordered, -, positional, named⟩ := placed
  subst idle
  simp only [shown, edge] at ordered
  have whole := ordered.of_later ends
  cases pairs with
  | nil => exact ⟨whole, positional, trivial⟩
  | cons pair rest =>
    have shape : OpenCall.hash ⟨path, start, params, pair :: rest, none⟩ =
        some ⟨(pair :: rest).reverse, (Hash.ofPairs (pair :: rest).reverse).span⟩ :=
      congrArg some (Hash.ofPairs_eq _)
    rw [OpenCall.finish, shape]
    exact ⟨whole, positional, rfl, named⟩

end OpenCall

namespace Call.Reading

/-- What holds of the calls around one that starts at a place: each has been read up to the start of
the next, which is to be its next argument. -/
def OuterArePlaced : Position → List OpenCall → Prop
  | _, [] => True
  | start, call :: outer =>
    call.IsPlaced start ∧ call.IsFree ∧ OuterArePlaced call.start outer

/-- What holds of a reading that has reached a place. -/
structure IsPlaced (reading : Reading) (place : Position) : Prop where
  begun : reading.expecting.start.UpTo place
  current : ∀ call, reading.expecting = .argument call → call.IsPlaced place
  outer : OuterArePlaced reading.expecting.start reading.outer

variable {placed : Placed} {reading : Reading} {place : Position}

/-- An atom stands where its lexeme does, and holds nothing. -/
theorem span_of_atom? {value : Expression} (found : atom? placed = some value) :
    value.span = placed.span ∧ value.IsPlaced := by
  unfold atom? at found
  split at found
  all_goals cases found
  all_goals exact ⟨rfl, trivial⟩

theorem isPlaced_of_takeArgument {call : OpenCall} {outer : List OpenCall} {taken : Reading}
    (read : call.IsPlaced place) (free : call.IsFree) (others : OuterArePlaced call.start outer)
    (behind : place.UpTo placed.span.start) (own : placed.span.IsOrdered)
    (took : takeArgument call outer placed = .ok taken) : taken.IsPlaced placed.span.stop := by
  unfold takeArgument at took
  split at took
  · cases took
    exact ⟨own, by rintro _ ⟨⟩, read.of_later behind, free, others⟩
  · split at took
    · rename_i value found
      cases took
      obtain ⟨same, inside⟩ := span_of_atom? found
      have added := read.add free (same ▸ behind) (same ▸ own) inside
      rw [same] at added
      refine ⟨added.start_upTo, ?_, ?_⟩
      · rintro _ ⟨⟩
        exact added
      · simpa [Expecting.start, start_add] using others
    · cases took

/-- One lexeme more, behind the place that has been reached, leaves a reading placed. -/
theorem isPlaced_of_moves {next : Reading} (read : reading.IsPlaced place)
    (behind : place.UpTo placed.span.start) (own : placed.span.IsOrdered)
    (moves : Moves placed reading (.inr next)) : next.IsPlaced placed.span.stop := by
  obtain ⟨begun, current, others⟩ := read
  cases moves with
  | callee name =>
    have front := begun.trans behind
    refine ⟨front.trans own, ?_, others⟩
    rintro _ ⟨⟩
    exact ⟨⟨front, own, Position.upTo_refl _⟩, Position.upTo_refl _, trivial, trivial⟩
  | argument free took => exact isPlaced_of_takeArgument (current _ rfl) free others behind own took
  | key idle name =>
    obtain ⟨ordered, reached, params, pairs⟩ := current _ rfl
    refine ⟨begun.trans (behind.trans own), ?_, others⟩
    rintro _ ⟨⟩
    simp only [OpenCall.edge, idle] at ordered
    exact ⟨ordered.of_later behind, own, params, pairs⟩
  | closeParen idle ended =>
    rename_i call parent outer
    have whole := (current _ rfl).finish idle (behind.trans own)
    have own : call.start.UpTo placed.span.stop := begun.trans (behind.trans own)
    obtain ⟨above, free, around⟩ := others
    have added := above.add free (Position.upTo_refl _)
      (show (Expression.call (call.finish placed.span.stop)).span.IsOrdered from own) whole
    refine ⟨added.start_upTo, ?_, ?_⟩
    · rintro _ ⟨⟩
      exact added
    · simpa [Expecting.start, start_add] using around

theorem isPlaced_of_close {call : Call} (read : reading.IsPlaced place)
    (behind : place.UpTo placed.span.start) (own : placed.span.IsOrdered)
    (moves : Moves placed reading (.inl call)) : call.IsPlaced := by
  cases moves with
  | close idle ended => exact (read.current _ rfl).finish idle (behind.trans own)

theorem isPlaced_of_run {cursor after : Cursor} {call : Call} (read : reading.IsPlaced cursor.position)
    (found : reading.run cursor = .ok (call, after)) : call.IsPlaced := by
  fun_induction run reading cursor with
  | case1 => cases found
  | case2 => cases found
  | case3 reading cursor placed next step call' finished =>
    cases found
    obtain ⟨behind, own, -⟩ := Cursor.span_of_readLexeme step
    exact isPlaced_of_close read behind own (moves_of_step finished)
  | case4 reading cursor placed next step reading' moved ih =>
    obtain ⟨behind, own, stop⟩ := Cursor.span_of_readLexeme step
    exact ih (stop ▸ isPlaced_of_moves read behind own (moves_of_step moved)) found

end Call.Reading

namespace Cursor

variable {cursor after : Cursor} {call : Call}

/-- The parts of a call that is read stand in it in order. -/
theorem isPlaced_of_readCall {start : Position} (begun : start.UpTo cursor.position)
    (found : cursor.readCall start = .ok (call, after)) : call.IsPlaced := by
  have read : Call.Reading.IsPlaced ⟨.callee start, []⟩ cursor.position :=
    ⟨begun, by rintro _ ⟨⟩, trivial⟩
  exact Call.Reading.isPlaced_of_run read found

theorem isPlaced_of_readMustache (found : cursor.readMustache = .ok (call, after)) : call.IsPlaced :=
  isPlaced_of_readCall (cursor.reaches_skip 2).upTo found

end Cursor

end LayoutMarkup
