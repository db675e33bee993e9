import LayoutMarkup.Proofs.Call.Rewriting
import LayoutMarkup.Proofs.Template.StartTags

/-! Texts without blanks that are rewritten as they were. Written mustaches show blanks between their
arguments; a text without blanks that is read as parts with the same written form has therefore only
names in its mustaches. -/

namespace LayoutMarkup

open Lexeme

theorem holdsMustache_of_not_mem {text : List Char} (absent : '{' ∉ text) :
    holdsMustache text = false := by
  apply holdsMustache_of_suffixes
  intro rest suffix _
  rw [← Bool.not_eq_true]
  intro opens
  obtain ⟨others, rfl⟩ := startsMustache_iff.mp opens
  exact absent (suffix.mem List.mem_cons_self)

/-- Text that opens no mustache does not matter. -/
theorem holdsNames_append {front rest : List Char} {d : Char}
    (plain : holdsMustache (front ++ [d]) = false) (names : holdsNames (d :: rest) = true) :
    holdsNames (front ++ d :: rest) = true := by
  induction front with
  | nil => exact names
  | cons c front ih =>
    rw [List.cons_append, holdsMustache, Bool.or_eq_false_iff] at plain
    have unopened := startsMustache_append (List.cons_ne_nil c front) d rest
    rw [List.cons_append, List.cons_append, plain.1] at unopened
    rw [List.cons_append, holdsNames, unopened, ih plain.2]
    rfl

theorem holdsNames_name {word rest : List Char} (name : IsName word)
    (names : holdsNames rest = true) :
    holdsNames ('{' :: '{' :: (word ++ '}' :: '}' :: rest)) = true := by
  have absent : '{' ∉ word := fun member => absurd (name.joined _ member) (by decide)
  have taken : (word ++ '}' :: '}' :: rest).takeWhile isPathChar = word :=
    takeWhile_append_stop name.joined (by rintro _ ⟨⟩; decide)
  have named : startsName (word ++ '}' :: '}' :: rest) = true := by
    rw [startsName, taken, List.drop_left]
    simp [name, List.isPrefixOf]
  have behind : holdsNames ('}' :: '}' :: rest) = true := by
    simp [holdsNames, startsMustache_cons, names]
  have inner : holdsMustache (('{' :: word) ++ ['}']) = false := by
    rw [holdsMustache_concat (by decide), holdsMustache, startsMustache_cons,
      holdsMustache_of_not_mem absent]
    simpa using fun first => absent (List.mem_of_head? first)
  have others := holdsNames_append inner behind
  rw [List.cons_append] at others
  rw [holdsNames, List.tail_cons, named, others, Bool.or_true]
  rfl

/-- A written mustache that stands in a text without blanks is only a name. -/
theorem name_of_writeMustache {call : Call} {text tail rest : List Char}
    (met : call.meets .legible = true) (unblank : ∀ c ∈ text, Unicode.isBlank c = false)
    (same : text ++ '"' :: tail = call.write ++ '}' :: '}' :: rest) :
    ∃ others, text = call.path.name.toList ++ '}' :: '}' :: others ∧
      rest = others ++ '"' :: tail := by
  have word := Call.Reading.isName_of_meets met
  obtain ⟨args, written, begins⟩ := call.write_eq_name_append
  rw [written, List.append_assoc] at same
  rcases List.append_eq_append_iff.mp same with ⟨others, name, quote⟩ | ⟨others, rfl, left⟩
  · -- the name goes on at least to the quote
    exfalso
    cases others with
    | nil =>
      rcases begins with rfl | blank
      · cases quote
      · obtain ⟨rest, rfl⟩ := List.head?_eq_some_iff.mp blank
        cases quote
    | cons c others =>
      obtain ⟨rfl, -⟩ := List.cons.inj quote
      have joined := word.joined '"' (by rw [name]; simp)
      exact absurd joined (by decide)
  · rcases begins with rfl | blank
    · match others, left with
      | [], left => cases left
      | [c], left => simp at left
      | c :: d :: others, left =>
        simp only [List.nil_append, List.cons_append, List.cons.injEq] at left
        obtain ⟨rfl, rfl, rfl⟩ := left
        exact ⟨others, rfl, rfl⟩
    · obtain ⟨args, rfl⟩ := List.head?_eq_some_iff.mp blank
      cases others with
      | nil => cases left
      | cons c others =>
        obtain ⟨rfl, -⟩ := List.cons.inj left
        have clear := unblank ' ' (by simp)
        exact absurd clear (by decide)

/-- Where no quote comes next, the parts go on with a mustache. -/
theorem Cursor.mustache_of_readParts {cursor last : Cursor} {quote : Char} {literal : List Char}
    {parts : List Part} (taken : literalStretch quote cursor.rest = literal)
    (other : (cursor.skip literal.length).peek? ≠ some quote)
    (found : cursor.readParts quote = .ok (parts, last)) :
    ∃ span call after behind, (cursor.skip literal.length).readMustache = .ok (call, after) ∧
      after.readParts quote = .ok (behind, last) ∧
      parts = Part.ofStretch literal span ++ .mustache call :: behind := by
  subst taken
  rw [readParts] at found
  split at found
  · cases found
  · rename_i c peeked
    have unquoted : c ≠ quote := by
      rintro rfl
      exact other peeked
    rw [if_neg unquoted] at found
    split at found
    · cases found
    · rename_i call after step
      split at found
      · cases found
      · rename_i behind last' ran
        cases found
        exact ⟨_, call, after, behind, step, ran, rfl⟩

/-- Text without blanks has only names in its mustaches if it is what its parts are written as. -/
theorem holdsNames_of_readParts {text : List Char} (unquoted : '"' ∉ text)
    (unblank : ∀ c ∈ text, Unicode.isBlank c = false) {cursor last : Cursor} {parts : List Part}
    {tail rest : List Char} (shape : cursor.rest = text ++ '"' :: tail)
    (found : cursor.readParts '"' = .ok (parts, last))
    (again : cursor.rest = parts.flatMap Part.write ++ '"' :: rest) : holdsNames text = true := by
  induction length : text.length using Nat.strongRecOn generalizing text cursor parts with
  | ind count ih =>
    obtain ⟨behind, split, clear, plain, ended⟩ := literalStretch_spec '"' text
    generalize literalStretch '"' text = literal at split clear plain
    subst split
    rcases ended with rfl | quote | opens
    · exact holdsNames_of_plain (by simpa using plain)
    · exact absurd (List.mem_append_right _ (List.mem_of_head? quote)) unquoted
    · obtain ⟨inner, rfl⟩ := startsMustache_iff.mp opens
      have front : cursor.rest = literal ++ '{' :: '{' :: (inner ++ '"' :: tail) := by simp [shape]
      have taken : literalStretch '"' cursor.rest = literal := by
        rw [front]
        exact literalStretch_append clear plain (.inr (startsMustache_iff.mpr ⟨_, rfl⟩))
      have left := Cursor.rest_skip front
      obtain ⟨span, call, after, others, step, ran, rfl⟩ :=
        Cursor.mustache_of_readParts taken (by simp [Cursor.peek?, left]) found
      have met := Cursor.meets_of_readMustache step
      have legible := Call.meets_of_implies Demands.asRead_implies_legible call met
      simp only [List.flatMap_append, List.flatMap_cons, flatMap_write_ofStretch clear,
        List.append_assoc] at again
      have same := List.append_cancel_left (front.symm.trans again)
      simp only [Part.write, Call.writeMustache, List.cons_append, List.append_assoc,
        List.nil_append, List.cons.injEq, true_and] at same
      have unblank' : ∀ c ∈ inner, Unicode.isBlank c = false :=
        fun c member => unblank c (by simp [member])
      obtain ⟨rest', rfl, final⟩ := name_of_writeMustache legible unblank' same
      -- the mustache is read to its end, and what stands behind it is a shorter text of this kind
      have whole : (cursor.skip literal.length).rest = call.writeMustache ++
          (others.flatMap Part.write ++ '"' :: rest) := by
        rw [left, same]
        simp [Call.writeMustache]
      obtain ⟨-, ended, -⟩ := Cursor.unescaped_of_readMustache met whole step whole
      have names := ih rest'.length (by rw [← length]; simp; omega)
        (fun member => unquoted (by simp [member])) (fun c member => unblank c (by simp [member]))
        (ended.trans final) ran ended rfl
      exact holdsNames_append plain (holdsNames_name (Call.Reading.isName_of_meets legible) names)

end LayoutMarkup
