import LayoutMarkup.Proofs.Call.Reread

/-! Calls that come back unchanged: those whose texts are written as they are and which hold no
numbers. -/

namespace LayoutMarkup

/-- Texts are written with no other escape than a backslash before a quote or a backslash, and there
are no numbers. -/
def Demands.plain : Demands where
  argument
    | .string value _ => ∀ c ∈ value.toList, Quoted.IsPlain c
    | .number .. => false
    | _ => true
  call _ := true
  key _ := true

mutual

theorem Expression.reread_of_plain : ∀ value : Expression, value.meets .asRead = true →
    value.meets .plain = true → value.reread = value.withoutSpans
  | .path _, _, _ => rfl
  | .string text _, _, plain => by
    have kept : ∀ c ∈ text.toList, Quoted.IsPlain c := by
      simpa [Expression.meets, Demands.plain] using plain
    simp only [Expression.reread, Expression.withoutSpans, Quoted.rereadText_of_isPlain kept]
  | .boolean _ _, _, _ => rfl
  | .call inner, met, plain => by
    simp only [Expression.meets, Bool.and_eq_true] at met plain
    simp only [Expression.reread, Expression.withoutSpans, inner.reread_of_plain met.2 plain.2]
  | .concat _ _, met, _ => by
    simp [Expression.meets, Demands.asRead] at met

/-- A plain call that was read is read again as itself. -/
theorem Call.reread_of_plain : ∀ call : Call, call.meets .asRead = true →
    call.meets .plain = true → call.reread = call.withoutSpans
  | ⟨_, params, hash, _⟩, met, plain => by
    simp only [Call.meets, Bool.and_eq_true] at met plain
    simp only [Call.reread, Call.withoutSpans, rereadParams_of_plain params met.1.2 plain.1.2,
      rereadHash_of_plain hash met.2 plain.2]

theorem rereadParams_of_plain : ∀ params : List Expression, paramsMeet .asRead params = true →
    paramsMeet .plain params = true → rereadParams params = paramsWithoutSpans params
  | [], _, _ => rfl
  | value :: rest, met, plain => by
    simp only [paramsMeet, Bool.and_eq_true] at met plain
    simp only [rereadParams, paramsWithoutSpans, value.reread_of_plain met.1 plain.1,
      rereadParams_of_plain rest met.2 plain.2]

theorem rereadHash_of_plain : ∀ hash : Option Hash, hashMeets .asRead hash = true →
    hashMeets .plain hash = true → rereadHash hash = hashWithoutSpans hash
  | none, _, _ => rfl
  | some ⟨pairs, _⟩, met, plain => by
    simp only [rereadHash, hashWithoutSpans, rereadPairs_of_plain pairs met plain]

theorem rereadPairs_of_plain : ∀ pairs : List Pair, pairsMeet .asRead pairs = true →
    pairsMeet .plain pairs = true → rereadPairs pairs = pairsWithoutSpans pairs
  | [], _, _ => rfl
  | ⟨_, value, _⟩ :: rest, met, plain => by
    simp only [pairsMeet, Bool.and_eq_true] at met plain
    simp only [rereadPairs, pairsWithoutSpans, value.reread_of_plain met.1.2 plain.1.2,
      rereadPairs_of_plain rest met.2 plain.2]

end

end LayoutMarkup
