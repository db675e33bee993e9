import LayoutMarkup.Proofs.Call.Demands
import LayoutMarkup.Proofs.Call.Steps

/-! What is always met by a call that was read: its names and keys are words that are read as such, a
hash has a pair, and the parts of an attribute value are never an argument. -/

namespace LayoutMarkup

open Demands Lexeme

theorem Call.meets_asRead_withSpan {call : Call} (span : Span) (met : call.meets .asRead = true) :
    Call.meets .asRead ⟨call.path, call.params, call.hash, span⟩ = true := by
  obtain ⟨path, params, hash, old⟩ := call
  exact met

/-- An open call all of whose parts so far meet what a call that was read meets. -/
structure OpenCall.IsLegible (call : OpenCall) : Prop where
  name : IsName call.path.name.toList
  params : paramsMeet asRead call.params = true
  pairs : pairsMeet asRead call.pairs = true
  key : ∀ waiting ∈ call.key, IsKey waiting.1.toList

namespace OpenCall.IsLegible

variable {call : OpenCall}

theorem add {value : Expression} (legible : call.IsLegible) (met : value.meets asRead = true) :
    (call.add value).IsLegible := by
  obtain ⟨path, start, params, pairs, key⟩ := call
  obtain ⟨name, positional, named, waiting⟩ := legible
  cases key with
  | none => exact ⟨name, by simp_all [OpenCall.add, paramsMeet], named, by simp [OpenCall.add]⟩
  | some key =>
    have word := waiting key rfl
    refine ⟨name, positional, ?_, by simp [OpenCall.add]⟩
    simp_all [OpenCall.add, pairsMeet, asRead]

theorem finish (legible : call.IsLegible) (stop : Position) :
    (call.finish stop).meets asRead = true := by
  obtain ⟨path, start, params, pairs, key⟩ := call
  obtain ⟨name, positional, named, -⟩ := legible
  simp only [OpenCall.finish, OpenCall.hash, Call.meets, Bool.and_eq_true, paramsMeet_reverse]
  refine ⟨⟨?_, positional⟩, ?_⟩
  · simp only [asRead, namedCall, Bool.and_eq_true, decide_eq_true_eq]
    refine ⟨name, ?_⟩
    split
    · rfl
    · simpa [Hash.pairs_ofPairs] using ‹¬ pairs.isEmpty = true›
  · split
    · rfl
    · rw [hashMeets_ofPairs, pairsMeet_reverse]
      exact named

end OpenCall.IsLegible

namespace Call.Reading

/-- What a reader of calls has taken so far meets what a call that was read meets. -/
structure IsLegible (reading : Reading) : Prop where
  current : ∀ call, reading.expecting = .argument call → call.IsLegible
  outer : ∀ call ∈ reading.outer, call.IsLegible

/-- The words among the lexemes are what such words have to be. -/
structure Wellformed (lexeme : Lexeme) : Prop where
  name : ∀ word, lexeme = .path word → IsName word.toList
  key : ∀ word, lexeme = .key word → IsKey word.toList

theorem meets_of_atom? {placed : Placed} {value : Expression}
    (wellformed : Wellformed placed.lexeme) (found : atom? placed = some value) :
    value.meets asRead = true := by
  unfold atom? at found
  split at found
  · rename_i word path
    cases found
    simpa [Expression.meets, asRead] using wellformed.name word path
  all_goals cases found
  all_goals rfl

theorem isLegible_of_takeArgument {call : OpenCall} {outer : List OpenCall} {placed : Placed}
    {reading : Reading} (legible : call.IsLegible) (others : ∀ other ∈ outer, other.IsLegible)
    (wellformed : Wellformed placed.lexeme)
    (taken : takeArgument call outer placed = .ok reading) : reading.IsLegible := by
  unfold takeArgument at taken
  split at taken
  · cases taken
    refine ⟨by rintro _ ⟨⟩, ?_⟩
    intro other member
    rcases List.mem_cons.mp member with rfl | member
    · exact legible
    · exact others other member
  · split at taken
    · rename_i value found
      cases taken
      refine ⟨?_, others⟩
      rintro _ ⟨⟩
      exact legible.add (meets_of_atom? wellformed found)
    · cases taken

/-- One lexeme more leaves a reading legible. -/
theorem isLegible_of_moves {reading reading' : Reading} {placed : Placed}
    (legible : reading.IsLegible) (wellformed : Wellformed placed.lexeme)
    (moves : Moves placed reading (.inr reading')) : reading'.IsLegible := by
  obtain ⟨current, others⟩ := legible
  cases moves with
  | callee name =>
    refine ⟨?_, others⟩
    rintro _ ⟨⟩
    exact ⟨wellformed.name _ name, rfl, rfl, by rintro _ ⟨⟩⟩
  | argument free took => exact isLegible_of_takeArgument (current _ rfl) others wellformed took
  | key idle name =>
    have own := current _ rfl
    refine ⟨?_, others⟩
    rintro _ ⟨⟩
    exact ⟨own.name, own.params, own.pairs, by rintro _ ⟨⟩; exact wellformed.key _ name⟩
  | closeParen idle ended =>
    have whole := (current _ rfl).finish placed.span.stop
    have above := others _ List.mem_cons_self
    refine ⟨?_, fun other member => others other (List.mem_cons_of_mem _ member)⟩
    rintro _ ⟨⟩
    exact above.add (by simpa [Expression.meets, asRead] using whole)

/-- The lexeme that completes a legible reading gives a legible call. -/
theorem meets_of_moves {reading : Reading} {placed : Placed} {call : Call}
    (legible : reading.IsLegible) (moves : Moves placed reading (.inl call)) :
    call.meets asRead = true := by
  cases moves with
  | close idle ended => exact (legible.current _ rfl).finish _

theorem wellformed_of_readLexeme {cursor after : Cursor} {placed : Placed}
    (found : cursor.readLexeme = (.ok placed, after)) : Wellformed placed.lexeme := by
  obtain ⟨count, read, -⟩ := Cursor.read_of_readLexeme found
  refine ⟨?_, ?_⟩
  · intro word path
    exact isName_of_read (path ▸ read)
  · intro word key
    exact isKey_of_read (key ▸ read)

theorem meets_of_run {reading : Reading} {cursor after : Cursor} {call : Call}
    (legible : reading.IsLegible) (found : reading.run cursor = .ok (call, after)) :
    call.meets asRead = true := by
  fun_induction run reading cursor with
  | case1 => cases found
  | case2 => cases found
  | case3 reading cursor placed next step call' finished =>
    obtain ⟨rfl, rfl⟩ := Prod.mk.inj (Except.ok.inj found)
    exact meets_of_moves legible (moves_of_step finished)
  | case4 reading cursor placed next step reading' moved ih =>
    exact ih (isLegible_of_moves legible (wellformed_of_readLexeme step) (moves_of_step moved)) found

end Call.Reading

namespace Cursor

variable {cursor after : Cursor} {call : Call}

/-- Every call that is read is legible. -/
theorem meets_of_readCall {start : Position} (found : cursor.readCall start = .ok (call, after)) :
    call.meets asRead = true :=
  Call.Reading.meets_of_run ⟨by rintro _ ⟨⟩, by simp⟩ found

theorem meets_of_readMustache (found : cursor.readMustache = .ok (call, after)) :
    call.meets asRead = true := meets_of_readCall found

theorem isName_of_readPath {path : Path} (found : cursor.readPath = .ok (path, after)) :
    IsName path.name.toList := by
  unfold readPath at found
  split at found
  · cases found
  · rename_i placed behind step
    split at found
    · rename_i word lexeme
      cases found
      exact (Call.Reading.wellformed_of_readLexeme step).name word lexeme
    · cases found

end Cursor

end LayoutMarkup
