import LayoutMarkup.Call.Read
import LayoutMarkup.Proofs.Lexeme.Words

/-! Demands on everything that a call is made of; above all the demand that its names and keys are words
that are read as such. -/

namespace LayoutMarkup

/-- Demands on each argument, each call and each key by itself. -/
structure Demands where
  argument : Expression → Bool
  call : Call → Bool
  key : String → Bool

variable (demands : Demands)

mutual

/-- Whether an argument and all that it holds meet the demands. -/
def Expression.meets : Expression → Bool
  | .path name => demands.argument (.path name)
  | .string value span => demands.argument (.string value span)
  | .number value span => demands.argument (.number value span)
  | .boolean value span => demands.argument (.boolean value span)
  | .call inner => demands.argument (.call inner) && inner.meets
  | .concat parts span => demands.argument (.concat parts span) && partsMeet parts

def Call.meets : Call → Bool
  | ⟨path, params, hash, span⟩ =>
    demands.call ⟨path, params, hash, span⟩ && paramsMeet params && hashMeets hash

def paramsMeet : List Expression → Bool
  | [] => true
  | value :: rest => value.meets && paramsMeet rest

def hashMeets : Option Hash → Bool
  | none => true
  | some ⟨pairs, _⟩ => pairsMeet pairs

def pairsMeet : List Pair → Bool
  | [] => true
  | ⟨key, value, _⟩ :: rest => demands.key key && value.meets && pairsMeet rest

def partsMeet : List Part → Bool
  | [] => true
  | .text _ :: rest => partsMeet rest
  | .mustache call :: rest => call.meets && partsMeet rest

end

theorem paramsMeet_append (first second : List Expression) :
    paramsMeet demands (first ++ second) = (paramsMeet demands first && paramsMeet demands second) := by
  induction first with
  | nil => rfl
  | cons value rest ih => simp [paramsMeet, ih, Bool.and_assoc]

theorem pairsMeet_append (first second : List Pair) :
    pairsMeet demands (first ++ second) = (pairsMeet demands first && pairsMeet demands second) := by
  induction first with
  | nil => rfl
  | cons pair rest ih =>
    obtain ⟨key, value, span⟩ := pair
    simp [pairsMeet, ih, Bool.and_assoc]

namespace Lexeme

instance (word : List Char) : Decidable (IsKey word) :=
  decidable_of_iff (word ≠ [] ∧ (∀ c ∈ word, isPathChar c = true) ∧ startsNumeral word = false)
    ⟨fun ⟨filled, joined, plain⟩ => ⟨filled, joined, plain⟩,
      fun key => ⟨key.filled, key.joined, key.notNumeral⟩⟩

instance (word : List Char) : Decidable (IsName word) :=
  decidable_of_iff (IsKey word ∧ word ≠ ['t', 'r', 'u', 'e'] ∧ word ≠ ['f', 'a', 'l', 's', 'e'])
    ⟨fun ⟨isKey, notTrue, notFalse⟩ => ⟨isKey, notTrue, notFalse⟩,
      fun name => ⟨name.toIsKey, name.notTrue, name.notFalse⟩⟩

end Lexeme

namespace Demands

open Lexeme

/-- A call with names that are read as names; if it has a hash, this has a pair. -/
def namedCall (call : Call) : Bool :=
  decide (IsName call.path.name.toList) && call.hash.all fun hash => !hash.pairs.isEmpty

/-- What makes the written form of a call a form that can be read. -/
def legible : Demands where
  argument
    | .path name => IsName name.name.toList
    | _ => true
  call := namedCall
  key name := IsKey name.toList

/-- What a call meets that was read: it is legible and holds no value of an attribute. -/
def asRead : Demands where
  argument
    | .path name => IsName name.name.toList
    | .concat .. => false
    | _ => true
  call := namedCall
  key name := IsKey name.toList

end Demands

section Weaken

variable {weak strong : Demands}

/-- Whoever meets demands meets weaker ones. -/
structure Demands.Implies (strong weak : Demands) : Prop where
  argument : ∀ value, strong.argument value = true → weak.argument value = true
  call : ∀ call, strong.call call = true → weak.call call = true
  key : ∀ name, strong.key name = true → weak.key name = true

mutual

theorem Expression.meets_of_implies (implies : strong.Implies weak) :
    ∀ value : Expression, value.meets strong = true → value.meets weak = true
  | .path _, met => implies.argument _ met
  | .string _ _, met => implies.argument _ met
  | .number _ _, met => implies.argument _ met
  | .boolean _ _, met => implies.argument _ met
  | .call inner, met => by
    simp only [Expression.meets, Bool.and_eq_true] at met ⊢
    exact ⟨implies.argument _ met.1, Call.meets_of_implies implies inner met.2⟩
  | .concat parts _, met => by
    simp only [Expression.meets, Bool.and_eq_true] at met ⊢
    exact ⟨implies.argument _ met.1, partsMeet_of_implies implies parts met.2⟩

theorem Call.meets_of_implies (implies : strong.Implies weak) :
    ∀ call : Call, call.meets strong = true → call.meets weak = true
  | ⟨_, params, hash, _⟩, met => by
    simp only [Call.meets, Bool.and_eq_true] at met ⊢
    exact ⟨⟨implies.call _ met.1.1, paramsMeet_of_implies implies params met.1.2⟩,
      hashMeets_of_implies implies hash met.2⟩

theorem paramsMeet_of_implies (implies : strong.Implies weak) :
    ∀ params : List Expression, paramsMeet strong params = true → paramsMeet weak params = true
  | [], _ => rfl
  | value :: rest, met => by
    simp only [paramsMeet, Bool.and_eq_true] at met ⊢
    exact ⟨Expression.meets_of_implies implies value met.1, paramsMeet_of_implies implies rest met.2⟩

theorem hashMeets_of_implies (implies : strong.Implies weak) :
    ∀ hash : Option Hash, hashMeets strong hash = true → hashMeets weak hash = true
  | none, _ => rfl
  | some ⟨pairs, _⟩, met => pairsMeet_of_implies implies pairs met

theorem pairsMeet_of_implies (implies : strong.Implies weak) :
    ∀ pairs : List Pair, pairsMeet strong pairs = true → pairsMeet weak pairs = true
  | [], _ => rfl
  | ⟨_, value, _⟩ :: rest, met => by
    simp only [pairsMeet, Bool.and_eq_true] at met ⊢
    exact ⟨⟨implies.key _ met.1.1, Expression.meets_of_implies implies value met.1.2⟩,
      pairsMeet_of_implies implies rest met.2⟩

theorem partsMeet_of_implies (implies : strong.Implies weak) :
    ∀ parts : List Part, partsMeet strong parts = true → partsMeet weak parts = true
  | [], _ => rfl
  | .text _ :: rest, met => partsMeet_of_implies implies rest met
  | .mustache call :: rest, met => by
    simp only [partsMeet, Bool.and_eq_true] at met ⊢
    exact ⟨Call.meets_of_implies implies call met.1, partsMeet_of_implies implies rest met.2⟩

end

end Weaken

theorem Demands.asRead_implies_legible : Demands.asRead.Implies Demands.legible where
  argument value met := by cases value <;> simp_all [asRead, legible]
  call _ met := met
  key _ met := met

theorem paramsMeet_reverse (params : List Expression) :
    paramsMeet demands params.reverse = paramsMeet demands params := by
  induction params with
  | nil => rfl
  | cons value rest ih => simp [paramsMeet_append, paramsMeet, ih, Bool.and_comm]

theorem pairsMeet_reverse (pairs : List Pair) :
    pairsMeet demands pairs.reverse = pairsMeet demands pairs := by
  induction pairs with
  | nil => rfl
  | cons pair rest ih =>
    obtain ⟨key, value, span⟩ := pair
    simp [pairsMeet_append, pairsMeet, ih, Bool.and_comm]

theorem Hash.pairs_ofPairs (pairs : List Pair) : (Hash.ofPairs pairs).pairs = pairs := by
  unfold Hash.ofPairs
  split <;> rfl

theorem hashMeets_ofPairs (pairs : List Pair) :
    hashMeets demands (some (.ofPairs pairs)) = pairsMeet demands pairs := by
  unfold Hash.ofPairs
  split <;> rfl

end LayoutMarkup
