import LayoutMarkup.Proofs.Call.Legible
import LayoutMarkup.Proofs.Call.Reread

/-! Calls written again. What a call is read back as has the same written form exactly if no text in
the call needs another escape than a backslash: such an escape loses its backslash, and the second
written form is shorter. -/

namespace LayoutMarkup

/-- Texts are written with no other escape than a backslash before a quote or a backslash. -/
def Demands.unescaped : Demands where
  argument
    | .string value _ => ∀ c ∈ value.toList, Quoted.IsPlain c
    | _ => true
  call _ := true
  key _ := true

/-- A text that is no longer than another, and as long only under a condition. -/
structure Shrinks (short long : List Char) (condition : Prop) : Prop where
  le : short.length ≤ long.length
  eq : short.length = long.length → condition

namespace Shrinks

variable {short long short' long' : List Char} {condition condition' : Prop}

theorem same (text : List Char) : Shrinks text text True := ⟨le_refl _, fun _ => trivial⟩

theorem append (first : Shrinks short long condition) (second : Shrinks short' long' condition') :
    Shrinks (short ++ short') (long ++ long') (condition ∧ condition') := by
  have less := first.le
  have less' := second.le
  refine ⟨by simp only [List.length_append]; omega, fun equal => ?_⟩
  simp only [List.length_append] at equal
  exact ⟨first.eq (by omega), second.eq (by omega)⟩

theorem imp (shrinks : Shrinks short long condition) (weaker : condition → condition') :
    Shrinks short long condition' :=
  ⟨shrinks.le, fun equal => weaker (shrinks.eq equal)⟩

theorem cons (c : Char) (shrinks : Shrinks short long condition) :
    Shrinks (c :: short) (c :: long) condition :=
  ⟨Nat.succ_le_succ shrinks.le, fun equal => shrinks.eq (Nat.succ.inj equal)⟩

end Shrinks

namespace Quoted

theorem shrinks_flatMap_reread (text : List Char) :
    Shrinks ((text.flatMap reread).flatMap (escape '"')) (text.flatMap (escape '"'))
      (∀ c ∈ text, IsPlain c) := by
  induction text with
  | nil => exact (Shrinks.same []).imp fun _ => by simp
  | cons c text ih =>
    have first : Shrinks ((reread c).flatMap (escape '"')) (escape '"' c) (IsPlain c) := by
      by_cases plain : IsPlain c
      · rw [reread_of_isPlain plain, List.flatMap_singleton]
        exact (Shrinks.same _).imp fun _ => plain
      · have longer := length_escape_of_not_isPlain plain
        exact ⟨by omega, by omega⟩
    simp only [List.flatMap_cons, List.flatMap_append]
    exact (first.append ih).imp fun ⟨one, others⟩ => by simpa using ⟨one, others⟩

/-- A text read back is written with fewer characters if one of them lost its backslash. -/
theorem shrinks_rereadText (content : String) :
    Shrinks (text (rereadText content).toList) (text content.toList)
      (∀ c ∈ content.toList, IsPlain c) := by
  have inner := (shrinks_flatMap_reread content.toList).append (Shrinks.same ['"'])
  simpa [text, rereadText] using (inner.cons '"').imp And.left

end Quoted

/-- The text of a number is that of what is read from it. -/
theorem Binary64.write_rereadArgument (number : Binary64) :
    number.rereadArgument.write = number.argumentText := by
  unfold rereadArgument reread
  rcases number.argumentText_cases with ⟨numeral, decimal, text, same⟩ | name
  · have starts := Lexeme.Numeral.startsNumeral_written decimal []
    have alone := @Lexeme.Numeral.read_written numeral [] decimal (by rintro _ ⟨⟩)
    rw [List.append_nil] at starts alone
    rw [text] at same ⊢
    simp only [starts, if_true, alone, Expression.write, same]
  · simp [name.notNumeral, Expression.write, Path.made]

mutual

theorem Expression.shrinks_reread : ∀ value : Expression, value.meets .asRead = true →
    Shrinks value.reread.write value.write (value.meets .unescaped = true)
  | .path name, _ => (Shrinks.same name.name.toList).imp fun _ => rfl
  | .string text _, _ => by
    refine (Quoted.shrinks_rereadText text).imp fun plain => ?_
    simpa [Expression.meets, Demands.unescaped] using plain
  | .number amount _, _ => by
    rw [Expression.reread, amount.write_rereadArgument]
    exact (Shrinks.same _).imp fun _ => rfl
  | .boolean value _, _ => (Shrinks.same (booleanText value)).imp fun _ => rfl
  | .call inner, met => by
    simp only [Expression.meets, Bool.and_eq_true] at met
    have shrinks := ((inner.shrinks_reread met.2).append (Shrinks.same [')'])).cons '('
    refine shrinks.imp fun ⟨plain, _⟩ => ?_
    simpa [Expression.meets, Demands.unescaped] using plain
  | .concat _ _, met => by
    simp [Expression.meets, Demands.asRead] at met

/-- What a call is read back as is written with fewer characters if an escape was lost. -/
theorem Call.shrinks_reread : ∀ call : Call, call.meets .asRead = true →
    Shrinks call.reread.write call.write (call.meets .unescaped = true)
  | ⟨path, params, hash, _⟩, met => by
    simp only [Call.meets, Bool.and_eq_true] at met
    have shrinks := ((Shrinks.same path.name.toList).append (shrinks_rereadParams params met.1.2)).append
      (shrinks_rereadHash hash met.2)
    refine shrinks.imp fun ⟨⟨_, positional⟩, named⟩ => ?_
    simp only [Call.meets, positional, named]
    rfl

theorem shrinks_rereadParams : ∀ params : List Expression, paramsMeet .asRead params = true →
    Shrinks (writeParams (rereadParams params)) (writeParams params)
      (paramsMeet .unescaped params = true)
  | [], _ => (Shrinks.same []).imp fun _ => rfl
  | value :: rest, met => by
    simp only [paramsMeet, Bool.and_eq_true] at met
    have shrinks := ((value.shrinks_reread met.1).append (shrinks_rereadParams rest met.2)).cons ' '
    refine shrinks.imp fun ⟨first, others⟩ => ?_
    simp only [paramsMeet, first, others]
    rfl

theorem shrinks_rereadHash : ∀ hash : Option Hash, hashMeets .asRead hash = true →
    Shrinks (writeHash (rereadHash hash)) (writeHash hash) (hashMeets .unescaped hash = true)
  | none, _ => (Shrinks.same []).imp fun _ => rfl
  | some ⟨pairs, _⟩, met => shrinks_rereadPairs pairs met

theorem shrinks_rereadPairs : ∀ pairs : List Pair, pairsMeet .asRead pairs = true →
    Shrinks (writePairs (rereadPairs pairs)) (writePairs pairs) (pairsMeet .unescaped pairs = true)
  | [], _ => (Shrinks.same []).imp fun _ => rfl
  | ⟨key, value, _⟩ :: rest, met => by
    simp only [pairsMeet, Bool.and_eq_true] at met
    have inner := (value.shrinks_reread met.1.2).append (shrinks_rereadPairs rest met.2)
    have shrinks := ((Shrinks.same key.toList).append (inner.cons '=')).cons ' '
    refine shrinks.imp fun ⟨_, first, others⟩ => ?_
    simp only [pairsMeet, first, others]
    rfl

end

mutual

theorem Expression.write_reread : ∀ value : Expression, value.meets .asRead = true →
    value.meets .unescaped = true → value.reread.write = value.write
  | .path _, _, _ => rfl
  | .string text _, _, plain => by
    have kept : ∀ c ∈ text.toList, Quoted.IsPlain c := by
      simpa [Expression.meets, Demands.unescaped] using plain
    simp only [Expression.reread, Expression.write, Quoted.rereadText_of_isPlain kept]
  | .number amount _, _, _ => by
    rw [Expression.reread, amount.write_rereadArgument, Expression.write]
  | .boolean _ _, _, _ => rfl
  | .call inner, met, plain => by
    simp only [Expression.meets, Bool.and_eq_true] at met plain
    simp only [Expression.reread, Expression.write, inner.write_reread met.2 plain.2]
  | .concat _ _, met, _ => by
    simp [Expression.meets, Demands.asRead] at met

/-- Without such an escape a call is written as before. -/
theorem Call.write_reread : ∀ call : Call, call.meets .asRead = true →
    call.meets .unescaped = true → call.reread.write = call.write
  | ⟨_, params, hash, _⟩, met, plain => by
    simp only [Call.meets, Bool.and_eq_true] at met plain
    simp only [Call.reread, Call.write, writeParams_reread params met.1.2 plain.1.2,
      writeHash_reread hash met.2 plain.2, Path.withoutSpan, Path.made]

theorem writeParams_reread : ∀ params : List Expression, paramsMeet .asRead params = true →
    paramsMeet .unescaped params = true → writeParams (rereadParams params) = writeParams params
  | [], _, _ => rfl
  | value :: rest, met, plain => by
    simp only [paramsMeet, Bool.and_eq_true] at met plain
    simp only [rereadParams, writeParams, value.write_reread met.1 plain.1,
      writeParams_reread rest met.2 plain.2]

theorem writeHash_reread : ∀ hash : Option Hash, hashMeets .asRead hash = true →
    hashMeets .unescaped hash = true → writeHash (rereadHash hash) = writeHash hash
  | none, _, _ => rfl
  | some ⟨pairs, _⟩, met, plain => writePairs_reread pairs met plain

theorem writePairs_reread : ∀ pairs : List Pair, pairsMeet .asRead pairs = true →
    pairsMeet .unescaped pairs = true → writePairs (rereadPairs pairs) = writePairs pairs
  | [], _, _ => rfl
  | ⟨_, value, _⟩ :: rest, met, plain => by
    simp only [pairsMeet, Bool.and_eq_true] at met plain
    simp only [rereadPairs, writePairs, value.write_reread met.1.2 plain.1.2,
      writePairs_reread rest met.2 plain.2]

end

/-- A call read back is written as before exactly if no escape was lost. -/
theorem Call.write_reread_eq_iff {call : Call} (met : call.meets .asRead = true) :
    call.reread.write = call.write ↔ call.meets .unescaped = true :=
  ⟨fun same => (call.shrinks_reread met).eq (congrArg List.length same), call.write_reread met⟩

namespace Cursor

variable {cursor after : Cursor} {tail rest : List Char}

/-- If the written form of a call is read as a call whose written form stands there as well, no escape
was lost and nothing else was read: written calls end where they are read to their end. -/
theorem unescaped_of_readCall {call read : Call} {start : Position} (met : call.meets .asRead = true)
    (shape : cursor.rest = call.write ++ '}' :: '}' :: tail)
    (found : cursor.readCall start = .ok (read, after))
    (again : cursor.rest = read.write ++ '}' :: '}' :: rest) :
    call.meets .unescaped = true ∧ after.rest = tail ∧ rest = tail := by
  have legible := Call.meets_of_implies Demands.asRead_implies_legible call met
  have legible' := Call.meets_of_implies Demands.asRead_implies_legible read (meets_of_readCall found)
  obtain ⟨first, last, read_eq, left, same⟩ := readCall_write start legible shape
  obtain ⟨second, last', read_eq', left', -⟩ := readCall_write start legible' again
  rw [found] at read_eq read_eq'
  cases read_eq
  cases read_eq'
  obtain rfl : rest = tail := left'.symm.trans left
  refine ⟨?_, left, rfl⟩
  rw [← Call.write_reread_eq_iff met, ← same, Call.write_withoutSpans]
  exact List.append_cancel_right (again.symm.trans shape)

theorem unescaped_of_readMustache {call read : Call} (met : call.meets .asRead = true)
    (shape : cursor.rest = call.writeMustache ++ tail)
    (found : cursor.readMustache = .ok (read, after))
    (again : cursor.rest = read.writeMustache ++ rest) :
    call.meets .unescaped = true ∧ after.rest = tail ∧ rest = tail := by
  have braces : cursor.rest = ['{', '{'] ++ (call.write ++ '}' :: '}' :: tail) := by
    simp [shape, Call.writeMustache]
  have braces' : cursor.rest = ['{', '{'] ++ (read.write ++ '}' :: '}' :: rest) := by
    simp [again, Call.writeMustache]
  exact unescaped_of_readCall met (rest_skip braces) found (rest_skip braces')

end Cursor

end LayoutMarkup
