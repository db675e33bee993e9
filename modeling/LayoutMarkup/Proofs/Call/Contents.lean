import LayoutMarkup.Proofs.Call.Legible
import LayoutMarkup.Proofs.Call.Rewriting

/-! What a call holds: the keys of its named arguments, and every string in it. The keys of a call that
is read back are its keys; its strings are its strings read back one by one, each of them the same only
if no character of it needs another escape than a backslash. -/

namespace LayoutMarkup

/-- The keys of the named arguments, in order. -/
def Call.keys (call : Call) : List String :=
  match call.hash with
  | none => []
  | some hash => hash.pairs.map Pair.key

mutual

/-- The strings in an argument, in the order in which they are written. -/
def Expression.strings : Expression → List String
  | .string value _ => [value]
  | .call inner => inner.strings
  | .concat parts _ => partStrings parts
  | .path _ => []
  | .number _ _ => []
  | .boolean _ _ => []

def Call.strings : Call → List String
  | ⟨_, params, hash, _⟩ => paramStrings params ++ hashStrings hash

def paramStrings : List Expression → List String
  | [] => []
  | value :: rest => value.strings ++ paramStrings rest

def hashStrings : Option Hash → List String
  | none => []
  | some ⟨pairs, _⟩ => pairStrings pairs

def pairStrings : List Pair → List String
  | [] => []
  | ⟨_, value, _⟩ :: rest => value.strings ++ pairStrings rest

/-- The literal text between mustaches counts as a string too: it becomes one when it is written. -/
def partStrings : List Part → List String
  | [] => []
  | .text text :: rest => text.chars :: partStrings rest
  | .mustache call :: rest => call.strings ++ partStrings rest

end

section Reread

variable {call other : Call}

/-- A call that is read back has the name that was written. -/
theorem Call.name_of_reread (same : call.withoutSpans = other.reread) :
    call.path.name = other.path.name := by
  obtain ⟨path, params, hash, span⟩ := call
  obtain ⟨path', params', hash', span'⟩ := other
  simp only [withoutSpans, reread, mk.injEq, Path.withoutSpan, Path.made, Path.mk.injEq] at same
  exact same.1.1

/-- It has no positional arguments if none were written. -/
theorem Call.params_of_reread (same : call.withoutSpans = other.reread) (bare : other.params = []) :
    call.params = [] := by
  obtain ⟨path, params, hash, span⟩ := call
  obtain ⟨path', params', hash', span'⟩ := other
  obtain rfl : params' = [] := bare
  simp only [withoutSpans, reread, rereadParams, mk.injEq] at same
  cases params with
  | nil => rfl
  | cons value rest => cases same.2.1

end Reread

/-! ### Keys -/

theorem keys_rereadPairs (pairs : List Pair) :
    (rereadPairs pairs).map Pair.key = pairs.map Pair.key := by
  induction pairs with
  | nil => rfl
  | cons pair rest ih =>
    obtain ⟨key, value, span⟩ := pair
    simp [rereadPairs, ih]

theorem keys_pairsWithoutSpans (pairs : List Pair) :
    (pairsWithoutSpans pairs).map Pair.key = pairs.map Pair.key := by
  induction pairs with
  | nil => rfl
  | cons pair rest ih =>
    obtain ⟨key, value, span⟩ := pair
    simp [pairsWithoutSpans, ih]

namespace Call

theorem keys_reread (call : Call) : call.reread.keys = call.keys := by
  obtain ⟨path, params, - | ⟨pairs, around⟩, span⟩ := call
  · rfl
  · exact keys_rereadPairs pairs

theorem keys_withoutSpans (call : Call) : call.withoutSpans.keys = call.keys := by
  obtain ⟨path, params, - | ⟨pairs, around⟩, span⟩ := call
  · rfl
  · exact keys_pairsWithoutSpans pairs

end Call

theorem isKey_of_pairsMeet {pairs : List Pair} (met : pairsMeet .asRead pairs = true) :
    ∀ key ∈ pairs.map Pair.key, Lexeme.IsKey key.toList := by
  induction pairs with
  | nil => simp
  | cons pair rest ih =>
    obtain ⟨key, value, span⟩ := pair
    simp only [pairsMeet, Bool.and_eq_true, Demands.asRead, decide_eq_true_eq] at met
    intro other member
    rcases List.mem_cons.mp member with rfl | later
    · exact met.1.1
    · exact ih met.2 other later

/-- Whatever was read as a key is one. -/
theorem Call.isKey_of_mem_keys {call : Call} (met : call.meets .asRead = true) :
    ∀ key ∈ call.keys, Lexeme.IsKey key.toList := by
  obtain ⟨path, params, - | ⟨pairs, around⟩, span⟩ := call
  · simp [keys]
  · simp only [meets, Bool.and_eq_true] at met
    exact isKey_of_pairsMeet met.2

/-! ### Strings -/

section WithoutSpans

mutual

theorem Expression.strings_withoutSpans : ∀ value : Expression,
    value.withoutSpans.strings = value.strings
  | .path _ => rfl
  | .string _ _ => rfl
  | .number _ _ => rfl
  | .boolean _ _ => rfl
  | .call inner => by rw [Expression.withoutSpans, Expression.strings, inner.strings_withoutSpans, Expression.strings]
  | .concat parts _ => by rw [Expression.withoutSpans, Expression.strings, partStrings_withoutSpans parts, Expression.strings]

/-- Spans have no part in the strings of a call. -/
theorem Call.strings_withoutSpans : ∀ call : Call, call.withoutSpans.strings = call.strings
  | ⟨_, params, hash, _⟩ => by
    rw [Call.withoutSpans, Call.strings, paramStrings_withoutSpans params,
      hashStrings_withoutSpans hash, Call.strings]

theorem paramStrings_withoutSpans : ∀ params : List Expression,
    paramStrings (paramsWithoutSpans params) = paramStrings params
  | [] => rfl
  | value :: rest => by
    rw [paramsWithoutSpans, paramStrings, value.strings_withoutSpans, paramStrings_withoutSpans rest,
      paramStrings]

theorem hashStrings_withoutSpans : ∀ hash : Option Hash,
    hashStrings (hashWithoutSpans hash) = hashStrings hash
  | none => rfl
  | some ⟨pairs, _⟩ => by
    rw [hashWithoutSpans, hashStrings, pairStrings_withoutSpans pairs, hashStrings]

theorem pairStrings_withoutSpans : ∀ pairs : List Pair,
    pairStrings (pairsWithoutSpans pairs) = pairStrings pairs
  | [] => rfl
  | ⟨_, value, _⟩ :: rest => by
    rw [pairsWithoutSpans, pairStrings, value.strings_withoutSpans, pairStrings_withoutSpans rest,
      pairStrings]

theorem partStrings_withoutSpans : ∀ parts : List Part,
    partStrings (partsWithoutSpans parts) = partStrings parts
  | [] => rfl
  | .text _ :: rest => by
    rw [partsWithoutSpans, partStrings, partStrings_withoutSpans rest, partStrings]
    rfl
  | .mustache call :: rest => by
    rw [partsWithoutSpans, partStrings, call.strings_withoutSpans, partStrings_withoutSpans rest,
      partStrings]

end

end WithoutSpans

section Reread

open Quoted

theorem Call.strings_of_isBare {call : Call} (bare : call.isBare = true) : call.strings = [] := by
  obtain ⟨path, params, hash, span⟩ := call
  simp only [isBare, Bool.and_eq_true, List.isEmpty_iff, Option.isNone_iff_eq_none] at bare
  obtain ⟨rfl, rfl⟩ := bare
  rfl

theorem Binary64.strings_rereadArgument (number : Binary64) : number.rereadArgument.strings = [] := by
  unfold rereadArgument
  split <;> rfl

mutual

theorem Expression.strings_reread : ∀ value : Expression,
    value.reread.strings = value.strings.map rereadText
  | .path _ => rfl
  | .string _ _ => rfl
  | .number value _ => value.strings_rereadArgument
  | .boolean _ _ => rfl
  | .call inner => by rw [Expression.reread, Expression.strings, inner.strings_reread, Expression.strings]
  | .concat parts _ => by
    rw [Expression.reread, Expression.strings, Call.strings, paramStrings_rereadConcat parts,
      hashStrings, List.append_nil, Expression.strings]

/-- The strings of a call come back one by one. -/
theorem Call.strings_reread : ∀ call : Call, call.reread.strings = call.strings.map rereadText
  | ⟨_, params, hash, _⟩ => by
    rw [Call.reread, Call.strings, paramStrings_reread params, hashStrings_reread hash,
      Call.strings, List.map_append]

theorem paramStrings_reread : ∀ params : List Expression,
    paramStrings (rereadParams params) = (paramStrings params).map rereadText
  | [] => rfl
  | value :: rest => by
    rw [rereadParams, paramStrings, value.strings_reread, paramStrings_reread rest, paramStrings,
      List.map_append]

theorem hashStrings_reread : ∀ hash : Option Hash,
    hashStrings (rereadHash hash) = (hashStrings hash).map rereadText
  | none => rfl
  | some ⟨pairs, _⟩ => by rw [rereadHash, hashStrings, pairStrings_reread pairs, hashStrings]

theorem pairStrings_reread : ∀ pairs : List Pair,
    pairStrings (rereadPairs pairs) = (pairStrings pairs).map rereadText
  | [] => rfl
  | ⟨_, value, _⟩ :: rest => by
    rw [rereadPairs, pairStrings, value.strings_reread, pairStrings_reread rest, pairStrings,
      List.map_append]

theorem paramStrings_rereadConcat : ∀ parts : List Part,
    paramStrings (rereadConcat parts) = (partStrings parts).map rereadText
  | [] => rfl
  | .text _ :: rest => by
    rw [rereadConcat, paramStrings, paramStrings_rereadConcat rest, partStrings]
    rfl
  | .mustache call :: rest => by
    rw [rereadConcat, paramStrings, paramStrings_rereadConcat rest, partStrings, List.map_append]
    by_cases bare : call.isBare = true
    · rw [if_pos bare, call.strings_of_isBare bare]
      rfl
    · rw [if_neg bare, Expression.strings, call.strings_reread]

end

/-- A text comes back as it was exactly if no character of it loses a backslash. -/
theorem Quoted.rereadText_eq_iff {content : String} :
    rereadText content = content ↔ ∀ c ∈ content.toList, IsPlain c := by
  constructor
  · intro same
    exact (shrinks_rereadText content).eq (by rw [same])
  · exact rereadText_of_isPlain

end Reread

end LayoutMarkup
