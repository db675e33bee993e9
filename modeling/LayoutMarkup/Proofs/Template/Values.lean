import LayoutMarkup.Proofs.Call.Legible
import LayoutMarkup.Proofs.Call.Reread
import LayoutMarkup.Proofs.Template.Literals
import LayoutMarkup.Proofs.Template.Spans
import LayoutMarkup.Proofs.Template.Steps

/-! Quoted values read back. The written parts of a value are read as the same parts, as long as no
literal part opens a mustache. Text that was not quoted in its source can do so: it is read back as it
was written if every mustache that it opens is only a name. -/

namespace LayoutMarkup

open Lexeme

/-- What holds of the parts of a value that was read: literal parts are not empty, do not adjoin each
other and open no mustache. -/
def PartsAreRead : List Part → Prop
  | [] => True
  | [.text literal] => literal.chars.toList ≠ [] ∧ holdsMustache literal.chars.toList = false
  | .text literal :: .mustache call :: rest =>
    literal.chars.toList ≠ [] ∧ holdsMustache (literal.chars.toList ++ ['{']) = false ∧
      call.meets .asRead = true ∧ PartsAreRead rest
  | .text _ :: .text _ :: _ => False
  | .mustache call :: rest => call.meets .asRead = true ∧ PartsAreRead rest

theorem PartsAreRead.tail {part : Part} {rest : List Part} (read : PartsAreRead (part :: rest)) :
    PartsAreRead rest := by
  match part, rest, read with
  | .text _, [], _ => trivial
  | .text _, .mustache _ :: _, ⟨_, _, met, others⟩ => exact ⟨met, others⟩
  | .mustache _, _, ⟨_, others⟩ => exact others

theorem PartsAreRead.mustache {call : Call} {rest : List Part}
    (read : PartsAreRead (.mustache call :: rest)) : call.meets .asRead = true := read.1

/-- Every mustache in a value that was read is one that was read. -/
theorem PartsAreRead.meets {parts : List Part} {call : Call} (read : PartsAreRead parts)
    (member : Part.mustache call ∈ parts) : call.meets .asRead = true := by
  induction parts with
  | nil => cases member
  | cons part rest ih =>
    rcases List.mem_cons.mp member with rfl | later
    · exact read.mustache
    · exact ih read.tail later

/-- What the written parts of a value are read as, spans apart. -/
def rereadParts : List Part → List Part
  | [] => []
  | .text literal :: rest =>
    .text (.made (String.ofList (escapeQuotes literal.chars.toList))) :: rereadParts rest
  | .mustache call :: rest => .mustache call.reread :: rereadParts rest

/-- The parts of a text in which every mustache is only a name. -/
def nameParts (text : List Char) : List Part :=
  let literal := literalStretch '"' text
  match _behind : text.drop literal.length with
  | '{' :: '{' :: rest =>
    let word := rest.takeWhile isPathChar
    Part.ofStretch literal .nowhere ++
      .mustache ⟨.made (String.ofList word), [], none, .nowhere⟩ :: nameParts (rest.drop (word.length + 2))
  | _ => Part.ofStretch literal .nowhere
termination_by text.length
decreasing_by
  have shorter := congrArg List.length _behind
  simp only [List.length_drop, List.length_cons] at shorter ⊢
  omega

/-- A text that is read as the parts of a value, up to the quote that ends it. -/
def ReadsAsParts (text : List Char) (expected : List Part) : Prop :=
  ∀ (cursor : Cursor) (tail : List Char), cursor.rest = text ++ '"' :: tail →
    ∃ parts last, cursor.readParts '"' = .ok (parts, last) ∧
      partsWithoutSpans parts = expected ∧ last.rest = '"' :: tail

theorem partsWithoutSpans_append (first second : List Part) :
    partsWithoutSpans (first ++ second) = partsWithoutSpans first ++ partsWithoutSpans second := by
  induction first with
  | nil => rfl
  | cons part rest ih => cases part <;> simp [partsWithoutSpans, ih]

theorem partsWithoutSpans_ofStretch (literal : List Char) (span : Span) :
    partsWithoutSpans (Part.ofStretch literal span) = Part.ofStretch literal .nowhere := by
  unfold Part.ofStretch
  split <;> rfl

namespace Cursor

variable {cursor after last : Cursor} {quote : Char} {literal : List Char}

theorem readParts_of_quote (taken : literalStretch quote cursor.rest = literal)
    (peeked : (cursor.skip literal.length).peek? = some quote) :
    cursor.readParts quote =
      .ok (Part.ofStretch literal ⟨cursor.position, (cursor.skip literal.length).position⟩,
        cursor.skip literal.length) := by
  rw [readParts]
  simp [taken, peeked]

theorem readParts_of_mustache {d : Char} {call : Call} {parts : List Part}
    (taken : literalStretch quote cursor.rest = literal)
    (peeked : (cursor.skip literal.length).peek? = some d) (other : d ≠ quote)
    (found : (cursor.skip literal.length).readMustache = .ok (call, after))
    (ran : after.readParts quote = .ok (parts, last)) :
    cursor.readParts quote =
      .ok (Part.ofStretch literal ⟨cursor.position, (cursor.skip literal.length).position⟩ ++
        .mustache call :: parts, last) := by
  subst taken
  rw [readParts_eq]
  simp only [peeked, other, if_false, found, ran]

end Cursor

theorem readsAsParts_literal {literal : List Char} (unquoted : '"' ∉ literal)
    (plain : holdsMustache literal = false) :
    ReadsAsParts literal (Part.ofStretch literal .nowhere) := by
  intro cursor tail shape
  have ended : holdsMustache (literal ++ ['"']) = false := by
    rw [holdsMustache_concat (by decide), plain]
  have taken : literalStretch '"' cursor.rest = literal := by
    rw [shape, literalStretch_append unquoted ended (.inl rfl)]
  have behind := Cursor.rest_skip shape
  have peeked : (cursor.skip literal.length).peek? = some '"' := by simp [Cursor.peek?, behind]
  exact ⟨_, _, Cursor.readParts_of_quote taken peeked, partsWithoutSpans_ofStretch _ _, behind⟩

/-- Literal text and then a mustache are read before the parts behind them. -/
theorem readsAsParts_mustache {literal others : List Char} {call : Call} {parts : List Part}
    (unquoted : '"' ∉ literal) (plain : holdsMustache (literal ++ ['{']) = false)
    (met : call.meets .legible = true) (rest : ReadsAsParts others parts) :
    ReadsAsParts (literal ++ (call.writeMustache ++ others))
      (Part.ofStretch literal .nowhere ++ .mustache call.reread :: parts) := by
  intro cursor tail shape
  have front : cursor.rest = literal ++ (call.writeMustache ++ (others ++ '"' :: tail)) := by
    simp [shape]
  have taken : literalStretch '"' cursor.rest = literal := by
    rw [front, Call.writeMustache, List.cons_append]
    exact literalStretch_append unquoted plain (.inr (startsMustache_iff.mpr ⟨_, rfl⟩))
  have behind := Cursor.rest_skip front
  obtain ⟨read, after, found, left, same⟩ := Cursor.readMustache_write met behind
  obtain ⟨inner, last, ran, kept, ended⟩ := rest after tail left
  have peeked : (cursor.skip literal.length).peek? = some '{' := by
    simp [Cursor.peek?, behind, Call.writeMustache]
  refine ⟨_, last, Cursor.readParts_of_mustache taken peeked (by decide) found ran, ?_, ended⟩
  rw [partsWithoutSpans_append, partsWithoutSpans_ofStretch, partsWithoutSpans, same, kept]

theorem ofStretch_of_ne_nil {literal : List Char} (filled : literal ≠ []) :
    Part.ofStretch literal .nowhere = [.text (.made (String.ofList literal))] := by
  simp [Part.ofStretch, filled, Text.made]

/-- The written parts of a value that was read are read again. -/
theorem readsAsParts_write : ∀ parts : List Part, PartsAreRead parts →
    ReadsAsParts (parts.flatMap Part.write) (rereadParts parts)
  | [], _ => readsAsParts_literal List.not_mem_nil rfl
  | [.text literal], ⟨filled, plain⟩ => by
    have unopened := holdsMustache_escapeQuotes literal.chars.toList []
    rw [List.append_nil, List.append_nil, plain] at unopened
    have reads := readsAsParts_literal (not_mem_escapeQuotes _) unopened
    rw [ofStretch_of_ne_nil (mt escapeQuotes_eq_nil.mp filled)] at reads
    simpa [Part.write, rereadParts] using reads
  | .text literal :: .mustache call :: rest, ⟨filled, plain, met, others⟩ => by
    have unopened := holdsMustache_escapeQuotes literal.chars.toList ['{']
    rw [plain] at unopened
    have legible := Call.meets_of_implies Demands.asRead_implies_legible call met
    have reads := readsAsParts_mustache (not_mem_escapeQuotes _) unopened legible
      (readsAsParts_write rest others)
    rw [ofStretch_of_ne_nil (mt escapeQuotes_eq_nil.mp filled)] at reads
    simpa [Part.write, rereadParts] using reads
  | .mustache call :: rest, ⟨met, others⟩ => by
    have legible := Call.meets_of_implies Demands.asRead_implies_legible call met
    exact readsAsParts_mustache List.not_mem_nil rfl legible (readsAsParts_write rest others)

theorem nameParts_of_plain {text : List Char} (unquoted : '"' ∉ text)
    (plain : holdsMustache text = false) : nameParts text = Part.ofStretch text .nowhere := by
  have whole : literalStretch '"' text = text := by
    obtain ⟨tail, shape, -, -, ended⟩ := literalStretch_spec '"' text
    have suffix : tail <:+ text := ⟨_, shape.symm⟩
    rcases ended with rfl | quote | opens
    · rw [List.append_nil] at shape
      exact shape.symm
    · exact absurd (suffix.mem (List.mem_of_head? quote)) unquoted
    · rw [startsMustache_of_suffix plain suffix] at opens
      cases opens
  rw [nameParts]
  simp [whole]

/-- A name as a mustache of its own. -/
def Call.ofWord (word : List Char) : Call := ⟨.made (String.ofList word), [], none, .nowhere⟩

theorem Call.writeMustache_ofWord (word : List Char) :
    (ofWord word).writeMustache = '{' :: '{' :: (word ++ ['}', '}']) := by
  simp [ofWord, writeMustache, write, writeParams, writeHash, Path.made]

/-- A text whose mustaches are names either has none or has a first one. -/
theorem holdsNames_cases {text : List Char} (unquoted : '"' ∉ text)
    (names : holdsNames text = true) :
    holdsMustache text = false ∨
    ∃ literal word others, text = literal ++ ((Call.ofWord word).writeMustache ++ others) ∧
      holdsMustache (literal ++ ['{']) = false ∧ IsName word ∧
      nameParts text = Part.ofStretch literal .nowhere ++ .mustache (.ofWord word) :: nameParts others := by
  obtain ⟨tail, shape, -, plain, ended⟩ := literalStretch_spec '"' text
  have suffix : tail <:+ text := ⟨_, shape.symm⟩
  rcases ended with rfl | quote | opens
  · left
    simpa [← shape] using plain
  · exact absurd (suffix.mem (List.mem_of_head? quote)) unquoted
  · right
    obtain ⟨rest, rfl⟩ := startsMustache_iff.mp opens
    have first := holdsNames_of_suffix names suffix
    rw [holdsNames, opens, Bool.not_true, Bool.false_or, Bool.and_eq_true] at first
    obtain ⟨named, -⟩ := first
    rw [startsName, List.tail_cons, Bool.and_eq_true] at named
    have word := of_decide_eq_true named.1
    obtain ⟨others, closed⟩ := List.isPrefixOf_iff_prefix.mp named.2
    have whole := List.prefix_iff_eq_append.mp (List.takeWhile_prefix (l := rest) isPathChar)
    have behind : text.drop (literalStretch '"' text).length = '{' :: '{' :: rest :=
      List.append_cancel_left ((List.prefix_iff_eq_append.mp ⟨_, shape.symm⟩).trans shape)
    refine ⟨literalStretch '"' text, rest.takeWhile isPathChar, others, ?_, plain, word, ?_⟩
    · rw [← closed, List.cons_append, List.cons_append, List.nil_append] at whole
      simp only [Call.writeMustache_ofWord, List.cons_append, List.append_assoc, List.nil_append,
        whole]
      exact shape
    · have left : rest.drop ((rest.takeWhile isPathChar).length + 2) = others := by
        rw [← List.drop_drop, ← closed]
        rfl
      rw [nameParts]
      split
      · rename_i rest' behind'
        rw [behind] at behind'
        cases behind'
        dsimp only
        rw [left]
        rfl
      · rename_i other
        exact absurd behind (other rest)

/-- Text whose mustaches are only names is read as the parts that it seems to have. -/
theorem readsAsParts_nameParts {text : List Char} (unquoted : '"' ∉ text)
    (names : holdsNames text = true) : ReadsAsParts text (nameParts text) := by
  induction length : text.length using Nat.strongRecOn generalizing text with
  | ind count ih =>
    rcases holdsNames_cases unquoted names with plain | ⟨literal, word, others, rfl, plain, name, parts⟩
    · rw [nameParts_of_plain unquoted plain]
      exact readsAsParts_literal unquoted plain
    · rw [parts]
      simp only [List.mem_append, not_or] at unquoted
      have inner := ih others.length (by
        rw [← length, Call.writeMustache_ofWord]
        simp only [List.length_append, List.length_cons]
        omega) unquoted.2.2 (holdsNames_of_suffix names ⟨literal ++ (Call.ofWord word).writeMustache, by simp⟩) rfl
      have met : (Call.ofWord word).meets .legible = true := by
        simp [Call.ofWord, Call.meets, Demands.legible, Demands.namedCall, Path.made, name, paramsMeet,
          hashMeets]
      exact readsAsParts_mustache unquoted.1 plain met inner

theorem flatMap_write_ofStretch {literal : List Char} (unquoted : '"' ∉ literal) (span : Span) :
    (Part.ofStretch literal span).flatMap Part.write = literal := by
  unfold Part.ofStretch
  split
  · rename_i empty
    simpa using (List.isEmpty_iff.mp empty).symm
  · simp [Part.write, escapeQuotes_of_not_mem unquoted]

/-- Text whose mustaches are only names is written as it was. -/
theorem flatMap_write_nameParts {text : List Char} (unquoted : '"' ∉ text)
    (names : holdsNames text = true) : (nameParts text).flatMap Part.write = text := by
  induction length : text.length using Nat.strongRecOn generalizing text with
  | ind count ih =>
    rcases holdsNames_cases unquoted names with plain | ⟨literal, word, others, rfl, -, -, parts⟩
    · rw [nameParts_of_plain unquoted plain, flatMap_write_ofStretch unquoted]
    · simp only [List.mem_append, not_or] at unquoted
      have inner := ih others.length (by
        rw [← length, Call.writeMustache_ofWord]
        simp only [List.length_append, List.length_cons]
        omega) unquoted.2.2 (holdsNames_of_suffix names ⟨literal ++ (Call.ofWord word).writeMustache, by simp⟩) rfl
      rw [parts, List.flatMap_append, List.flatMap_cons, inner, flatMap_write_ofStretch unquoted.1]
      rfl

end LayoutMarkup
