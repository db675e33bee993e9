import LayoutMarkup.Call.Print

/-! Calls without their spans: what is left when it does not matter where a call was read. The written
form of a call is part of it. -/

namespace LayoutMarkup

def Path.withoutSpan (path : Path) : Path := .made path.name

mutual

/-- An argument as though it had been made and not read. -/
def Expression.withoutSpans : Expression → Expression
  | .path name => .path name.withoutSpan
  | .string value _ => .string value .nowhere
  | .number value _ => .number value .nowhere
  | .boolean value _ => .boolean value .nowhere
  | .call inner => .call inner.withoutSpans
  | .concat parts _ => .concat (partsWithoutSpans parts) .nowhere

def Call.withoutSpans : Call → Call
  | ⟨path, params, hash, _⟩ =>
    ⟨path.withoutSpan, paramsWithoutSpans params, hashWithoutSpans hash, .nowhere⟩

def paramsWithoutSpans : List Expression → List Expression
  | [] => []
  | value :: rest => value.withoutSpans :: paramsWithoutSpans rest

def hashWithoutSpans : Option Hash → Option Hash
  | none => none
  | some ⟨pairs, _⟩ => some ⟨pairsWithoutSpans pairs, .nowhere⟩

def pairsWithoutSpans : List Pair → List Pair
  | [] => []
  | ⟨key, value, _⟩ :: rest => ⟨key, value.withoutSpans, .nowhere⟩ :: pairsWithoutSpans rest

def partsWithoutSpans : List Part → List Part
  | [] => []
  | .text text :: rest => .text (.made text.chars) :: partsWithoutSpans rest
  | .mustache call :: rest => .mustache call.withoutSpans :: partsWithoutSpans rest

end

theorem pairsWithoutSpans_eq_nil {pairs : List Pair} :
    pairsWithoutSpans pairs = [] ↔ pairs = [] := by
  rcases pairs with - | ⟨⟨key, value, span⟩, rest⟩ <;> simp [pairsWithoutSpans]

theorem hashWithoutSpans_ofPairs (pairs : List Pair) :
    hashWithoutSpans (some (.ofPairs pairs)) = some ⟨pairsWithoutSpans pairs, .nowhere⟩ := by
  unfold Hash.ofPairs
  split <;> rfl

theorem isBare_withoutSpans (call : Call) : call.withoutSpans.isBare = call.isBare := by
  obtain ⟨path, params, hash, span⟩ := call
  rcases hash with - | ⟨pairs, around⟩ <;> cases params <;>
    simp [Call.isBare, Call.withoutSpans, paramsWithoutSpans, hashWithoutSpans]

mutual

theorem Expression.write_withoutSpans : ∀ value : Expression, value.withoutSpans.write = value.write
  | .path _ => rfl
  | .string _ _ => rfl
  | .number _ _ => rfl
  | .boolean _ _ => rfl
  | .call inner => by
    simp only [Expression.withoutSpans, Expression.write, inner.write_withoutSpans]
  | .concat parts _ => by
    simp only [Expression.withoutSpans, Expression.write, writeConcat_withoutSpans parts]

/-- A call is written without a look at its spans. -/
theorem Call.write_withoutSpans : ∀ call : Call, call.withoutSpans.write = call.write
  | ⟨path, params, hash, _⟩ => by
    simp only [Call.withoutSpans, Call.write, Path.withoutSpan, Path.made,
      writeParams_withoutSpans params, writeHash_withoutSpans hash]

theorem writeParams_withoutSpans :
    ∀ params : List Expression, writeParams (paramsWithoutSpans params) = writeParams params
  | [] => rfl
  | value :: rest => by
    simp only [paramsWithoutSpans, writeParams, value.write_withoutSpans,
      writeParams_withoutSpans rest]

theorem writeHash_withoutSpans :
    ∀ hash : Option Hash, writeHash (hashWithoutSpans hash) = writeHash hash
  | none => rfl
  | some ⟨pairs, _⟩ => by
    simp only [hashWithoutSpans, writeHash, writePairs_withoutSpans pairs]

theorem writePairs_withoutSpans :
    ∀ pairs : List Pair, writePairs (pairsWithoutSpans pairs) = writePairs pairs
  | [] => rfl
  | ⟨key, value, _⟩ :: rest => by
    simp only [pairsWithoutSpans, writePairs, value.write_withoutSpans,
      writePairs_withoutSpans rest]

theorem writeConcat_withoutSpans :
    ∀ parts : List Part, writeConcat (partsWithoutSpans parts) = writeConcat parts
  | [] => rfl
  | .text text :: rest => by
    simp only [partsWithoutSpans, writeConcat, Text.made, writeConcat_withoutSpans rest]
  | .mustache call :: rest => by
    simp only [partsWithoutSpans, writeConcat, isBare_withoutSpans, call.write_withoutSpans,
      writeConcat_withoutSpans rest]

end

end LayoutMarkup
