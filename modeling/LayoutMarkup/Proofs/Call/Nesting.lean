import LayoutMarkup.Proofs.Call.Placement

/-! Calls within calls. In a call that was read, and in every call that is an argument in it, the name,
the positional arguments and the named ones follow each other, each value lies in its pair, and the hash
reaches from its first pair to its last. -/

namespace LayoutMarkup

namespace Call

/-- The arguments of a call, the positional ones first. -/
def arguments (call : Call) : List Expression :=
  call.params ++ (hashPairs call.hash).map Pair.value

/-- A call contains itself and every call that is an argument in it, at any depth. -/
inductive Contains (outer : Call) : Call → Prop
  | self : Contains outer outer
  | argument {call inner : Call} (within : Contains outer call)
      (listed : .call inner ∈ call.arguments) : Contains outer inner

/-- How the parts of a call stand in it. -/
structure SpansNest (call : Call) : Prop where
  ordered : InOrder call.span.start
    (call.path.span :: (call.params.map Expression.span ++ (hashPairs call.hash).map Pair.span))
    call.span.stop
  values : ∀ pair ∈ hashPairs call.hash, InOrder pair.span.start [pair.value.span] pair.span.stop
  hash : ∀ hash, call.hash = some hash → ∃ first last, hash.pairs.head? = some first ∧
    hash.pairs.getLast? = some last ∧ hash.span = ⟨first.span.start, last.span.stop⟩

end Call

theorem paramsArePlaced_iff {params : List Expression} :
    ParamsArePlaced params ↔ ∀ value ∈ params, value.IsPlaced := by
  induction params with
  | nil => simp [ParamsArePlaced]
  | cons value rest ih => simp [ParamsArePlaced, ih]

theorem pairsArePlaced_iff {pairs : List Pair} :
    PairsArePlaced pairs ↔ ∀ pair ∈ pairs,
      InOrder pair.span.start [pair.value.span] pair.span.stop ∧ pair.value.IsPlaced := by
  induction pairs with
  | nil => simp [PairsArePlaced]
  | cons pair rest ih =>
    obtain ⟨key, value, span⟩ := pair
    simp [PairsArePlaced, ih, and_assoc]

theorem paramsMeet_iff {demands : Demands} {params : List Expression} :
    paramsMeet demands params = true ↔ ∀ value ∈ params, value.meets demands = true := by
  induction params with
  | nil => simp [paramsMeet]
  | cons value rest ih => simp [paramsMeet, ih]

theorem values_of_pairsMeet {demands : Demands} {pairs : List Pair}
    (met : pairsMeet demands pairs = true) : ∀ pair ∈ pairs, pair.value.meets demands = true := by
  induction pairs with
  | nil => simp
  | cons pair rest ih =>
    obtain ⟨key, value, span⟩ := pair
    simp only [pairsMeet, Bool.and_eq_true] at met
    exact List.forall_mem_cons.mpr ⟨met.1.2, ih met.2⟩

namespace Call

variable {outer call : Call} {demands : Demands}

theorem IsPlaced.ordered (placed : call.IsPlaced) : InOrder call.span.start
    (call.path.span :: (call.params.map Expression.span ++ (hashPairs call.hash).map Pair.span))
    call.span.stop := by
  obtain ⟨path, params, hash, span⟩ := call
  exact placed.1

theorem IsPlaced.pairs (placed : call.IsPlaced) : PairsArePlaced (hashPairs call.hash) := by
  obtain ⟨path, params, hash, span⟩ := call
  obtain ⟨-, -, named⟩ := placed
  match hash with
  | none => trivial
  | some ⟨_, _⟩ => exact named.2

/-- What holds of a call holds of the calls among its arguments. -/
theorem IsPlaced.of_argument {value : Expression} (placed : call.IsPlaced)
    (listed : value ∈ call.arguments) : value.IsPlaced := by
  rcases List.mem_append.mp listed with positional | named
  · obtain ⟨path, params, hash, span⟩ := call
    exact paramsArePlaced_iff.mp placed.2.1 value positional
  · obtain ⟨pair, member, rfl⟩ := List.mem_map.mp named
    exact (pairsArePlaced_iff.mp placed.pairs pair member).2

theorem meets_of_argument {value : Expression} (met : call.meets demands = true)
    (listed : value ∈ call.arguments) : value.meets demands = true := by
  obtain ⟨path, params, hash, span⟩ := call
  simp only [meets, Bool.and_eq_true] at met
  rcases List.mem_append.mp listed with positional | named
  · exact paramsMeet_iff.mp met.1.2 value positional
  · obtain ⟨pair, member, rfl⟩ := List.mem_map.mp named
    match hash with
    | none => cases member
    | some ⟨_, _⟩ => exact values_of_pairsMeet met.2 pair member

theorem IsPlaced.of_contains (placed : outer.IsPlaced) (within : outer.Contains call) :
    call.IsPlaced := by
  induction within with
  | self => exact placed
  | argument _ listed ih => exact ih.of_argument listed

theorem meets_of_contains (met : outer.meets demands = true) (within : outer.Contains call) :
    call.meets demands = true := by
  induction within with
  | self => exact met
  | argument _ listed ih =>
    have own := meets_of_argument ih listed
    simp only [Expression.meets, Bool.and_eq_true] at own
    exact own.2

/-- The hash of a call that was read has a pair, so that it has a first and a last. -/
theorem hash_of_isPlaced {hash : Hash} (placed : HashIsPlaced (some hash)) (filled : hash.pairs ≠ []) :
    ∃ first last, hash.pairs.head? = some first ∧ hash.pairs.getLast? = some last ∧
      hash.span = ⟨first.span.start, last.span.stop⟩ := by
  obtain ⟨pairs, span⟩ := hash
  obtain ⟨around, -⟩ := placed
  have first : pairs.head? = some (pairs.head filled) := List.head?_eq_some_head filled
  have last : pairs.getLast? = some (pairs.getLast filled) := List.getLast?_eq_some_getLast filled
  refine ⟨_, _, first, last, ?_⟩
  rw [around, Hash.ofPairs, first, last]

theorem spansNest_of_isPlaced (placed : call.IsPlaced) (met : call.meets .asRead = true) :
    call.SpansNest where
  ordered := placed.ordered
  values pair member := (pairsArePlaced_iff.mp placed.pairs pair member).1
  hash hash present := by
    obtain ⟨path, params, own, span⟩ := call
    obtain rfl : own = some hash := present
    simp only [meets, Demands.asRead, Demands.namedCall, Bool.and_eq_true, Option.all_some] at met
    exact hash_of_isPlaced placed.2.2 (by simpa using met.1.1.2)

/-- The spans nest in every call within a call that was read. -/
theorem spansNest_of_contains (placed : outer.IsPlaced) (met : outer.meets .asRead = true)
    (within : outer.Contains call) : call.SpansNest :=
  spansNest_of_isPlaced (placed.of_contains within) (meets_of_contains met within)

end Call

end LayoutMarkup
