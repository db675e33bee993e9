import LayoutMarkup.Proofs.Template.Values

/-! Start tags read back: what is always so about attributes that were read, and what their written
form is read as. -/

namespace LayoutMarkup

open Cursor (valueOfParts)

namespace AttributeValue

/-- What holds of a value that was read. Only text that was not quoted can open a mustache, and such
text has no blanks. -/
def IsRead : AttributeValue → Prop
  | .text literal =>
    holdsMustache literal.chars.toList = false ∨
      ∀ c ∈ literal.chars.toList, isBareValueChar c = true
  | .mustache call => call.meets .asRead = true
  | .concat parts _ => PartsAreRead parts ∧ ∃ call, Part.mustache call ∈ parts

/-- Whether the literal text of a value opens no other mustaches than names. -/
def opensNames : AttributeValue → Bool
  | .text literal => holdsNames literal.chars.toList
  | _ => true

/-- What the written form of a value is read as, spans apart. -/
def reread : AttributeValue → AttributeValue
  | .text literal => valueOfParts (nameParts (escapeQuotes literal.chars.toList)) .nowhere
  | .mustache call => .mustache call.reread
  | .concat parts _ => .concat (rereadParts parts) .nowhere

end AttributeValue

theorem valueOfParts_withoutSpans (parts : List Part) (span : Span) :
    (valueOfParts parts span).withoutSpans = valueOfParts (partsWithoutSpans parts) .nowhere := by
  match parts with
  | [] => rfl
  | [.text literal] => rfl
  | [.mustache call] => rfl
  | .text literal :: second :: rest => cases second <;> rfl
  | .mustache call :: second :: rest => cases second <;> rfl

theorem valueOfParts_of_mustache {parts : List Part} {call : Call}
    (member : Part.mustache call ∈ parts) (span : Span) :
    valueOfParts parts span = .concat parts span := by
  match parts with
  | [] => cases member
  | [.text literal] => simp at member
  | [.mustache call] => rfl
  | .text literal :: second :: rest => rfl
  | .mustache call :: second :: rest => rfl

theorem mustache_mem_rereadParts {parts : List Part} {call : Call}
    (member : Part.mustache call ∈ parts) : Part.mustache call.reread ∈ rereadParts parts := by
  induction parts with
  | nil => cases member
  | cons part rest ih =>
    cases part with
    | text literal =>
      have later : Part.mustache call ∈ rest := by simpa using member
      exact List.mem_cons_of_mem _ (ih later)
    | mustache other =>
      rcases List.mem_cons.mp member with same | later
      · cases same
        exact List.mem_cons_self
      · exact List.mem_cons_of_mem _ (ih later)

theorem partsAreRead_ofStretch {literal : List Char} (plain : holdsMustache literal = false)
    (span : Span) : PartsAreRead (Part.ofStretch literal span) := by
  unfold Part.ofStretch
  split
  · trivial
  · rename_i filled
    exact ⟨by simpa using filled, by simpa using plain⟩

namespace Cursor

variable {cursor after last : Cursor}

theorem partsAreRead_of_readParts {quote : Char} {parts : List Part}
    (found : cursor.readParts quote = .ok (parts, last)) : PartsAreRead parts := by
  fun_induction readParts cursor quote generalizing parts last with
  | case1 => cases found
  | case2 cursor stretch behind =>
    obtain ⟨rfl, -⟩ := Prod.mk.inj (Except.ok.inj found)
    obtain ⟨tail, -, -, plain, -⟩ := literalStretch_spec quote cursor.rest
    exact partsAreRead_ofStretch (holdsMustache_of_start plain (List.prefix_append _ _)) _
  | case3 => cases found
  | case4 => cases found
  | case5 =>
    rename_i cursor stretch behind literal c peeked other call after step parts' last' ran ih
    obtain ⟨rfl, -⟩ := Prod.mk.inj (Except.ok.inj found)
    have rest := ih ran
    have met := meets_of_readMustache step
    obtain ⟨tail, shape, -, plain, ended⟩ := literalStretch_spec quote cursor.rest
    have front : tail.head? = some c := by
      have left : behind.rest = tail := rest_skip shape
      rw [← left]
      exact peeked
    have opens : startsMustache tail = true := by
      rcases ended with rfl | quoted | opens
      · cases front
      · rw [quoted] at front
        exact absurd (Option.some.inj front).symm other
      · exact opens
    obtain ⟨others, rfl⟩ := startsMustache_iff.mp opens
    unfold literal Part.ofStretch
    split
    · exact ⟨met, rest⟩
    · rename_i filled
      exact ⟨by simpa using filled, by simpa using plain, met, rest⟩

theorem isRead_of_readValue {value : AttributeValue}
    (found : cursor.readValue = .ok (value, after)) : value.IsRead := by
  simp only [readValue] at found
  repeat' split at found
  · cases found
  · rename_i parts last ran
    cases found
    have read := partsAreRead_of_readParts ran
    match parts with
    | [] => exact .inl rfl
    | [.text literal] => exact .inl read.2
    | .mustache call :: rest =>
      rw [valueOfParts_of_mustache List.mem_cons_self]
      exact ⟨read, call, List.mem_cons_self⟩
    | .text literal :: .mustache call :: rest =>
      rw [valueOfParts_of_mustache (List.mem_cons_of_mem _ List.mem_cons_self)]
      exact ⟨read, call, List.mem_cons_of_mem _ List.mem_cons_self⟩
  · cases found
  · rename_i step
    cases found
    exact meets_of_readMustache step
  · cases found
    right
    intro c member
    rw [String.toList_ofList] at member
    exact List.mem_takeWhile_imp member

end Cursor

theorem not_blank_of_isAttributeNameChar {c : Char} (named : isAttributeNameChar c = true) :
    Unicode.isBlank c = false := by
  simp only [isAttributeNameChar, Bool.not_eq_true', Bool.or_eq_false_iff] at named
  exact named.1

/-- What holds of an attribute that was read. -/
structure Attribute.IsRead (attr : Attribute) : Prop where
  filled : attr.name.toList ≠ []
  named : ∀ c ∈ attr.name.toList, isAttributeNameChar c = true
  value : attr.value.IsRead

theorem Attribute.IsRead.exists_first {attr : Attribute} (read : attr.IsRead) :
    ∃ c letters, attr.name.toList = c :: letters ∧ isAttributeNameChar c = true := by
  obtain ⟨c, letters, word⟩ := List.exists_cons_of_ne_nil read.filled
  exact ⟨c, letters, word, read.named c (word ▸ List.mem_cons_self)⟩

/-- The name of an attribute that was read does not begin with a blank. -/
theorem Attribute.IsRead.head_not_blank {attr : Attribute} (read : attr.IsRead) (tail : List Char) :
    ∀ c ∈ (attr.name.toList ++ tail).head?, Unicode.isBlank c = false := by
  obtain ⟨c, letters, word, first⟩ := read.exists_first
  simpa [word] using not_blank_of_isAttributeNameChar first

/-- What the written form of an attribute is read as, spans apart. -/
def Attribute.reread (attr : Attribute) : Attribute := ⟨attr.name, attr.value.reread, .nowhere⟩

namespace Cursor

variable {cursor after last : Cursor}

theorem isRead_of_readAttribute {attr : Attribute}
    (found : cursor.readAttribute = .ok (attr, after)) : attr.IsRead := by
  simp only [readAttribute] at found
  split at found
  · cases found
  · rename_i filled
    have named : ∀ c ∈ cursor.run isAttributeNameChar, isAttributeNameChar c = true :=
      fun c member => List.mem_takeWhile_imp member
    split at found
    · cases found
      exact ⟨by simpa using filled, by simpa using named, .inl rfl⟩
    · split at found
      · cases found
      · rename_i value after' step
        cases found
        exact ⟨by simpa using filled, by simpa using named, isRead_of_readValue step⟩

theorem isRead_of_readAttributes {tag : String} {attrs : List Attribute} {closing : Bool}
    (found : cursor.readAttributes tag = .ok (attrs, closing, last)) :
    ∀ attr ∈ attrs, attr.IsRead := by
  fun_induction readAttributes cursor tag generalizing attrs closing last with
  | case1 => cases found; simp
  | case2 => cases found; simp
  | case3 => cases found
  | case4 => cases found
  | case5 => cases found
  | case6 =>
    rename_i step _ _ _ rest ih
    cases found
    intro attr member
    rcases List.mem_cons.mp member with rfl | later
    · exact isRead_of_readAttribute step
    · exact ih rest attr later

/-- A value between quotes is read as what its parts make up. -/
theorem readValue_of_parts {text tail : List Char} {parts : List Part}
    (reads : ReadsAsParts text parts) (shape : cursor.rest = '"' :: (text ++ '"' :: tail)) :
    ∃ read after, cursor.readValue = .ok (read, after) ∧ after.rest = tail ∧
      read.withoutSpans = valueOfParts parts .nowhere := by
  obtain ⟨inner, last, ran, kept, ended⟩ := reads (cursor.skip 1) tail (by simp [skip, shape])
  have quoted : cursor.sees ['"'] = true := sees_iff.mpr ⟨_, shape.symm⟩
  have peeked : cursor.peek? = some '"' := by simp [peek?, shape]
  refine ⟨valueOfParts inner ⟨cursor.position, (last.skip 1).position⟩, last.skip 1, ?_,
    by simp [skip, ended], by rw [valueOfParts_withoutSpans, kept]⟩
  simp [readValue, quoted, peeked, ran]

theorem readValue_write {value : AttributeValue} {tail : List Char} (legal : value.IsRead)
    (names : value.opensNames = true) (shape : cursor.rest = value.write ++ tail) :
    ∃ read after, cursor.readValue = .ok (read, after) ∧ after.rest = tail ∧
      read.withoutSpans = value.reread := by
  cases value with
  | text literal =>
    have inner : holdsNames (escapeQuotes literal.chars.toList) = true := by
      rw [holdsNames_escapeQuotes]
      exact names
    exact readValue_of_parts (readsAsParts_nameParts (not_mem_escapeQuotes _) inner)
      (by simp [shape, AttributeValue.write])
  | mustache call =>
    have legible := Call.meets_of_implies Demands.asRead_implies_legible call legal
    obtain ⟨read, after, found, rest, same⟩ := readMustache_write legible shape
    have opens : startsMustache cursor.rest = true := by
      rw [shape]
      exact startsMustache_iff.mpr ⟨_, rfl⟩
    have unquoted : cursor.sees ['"'] = false ∧ cursor.sees ['\''] = false := by
      simp [sees, shape, AttributeValue.write, Call.writeMustache, List.isPrefixOf]
    refine ⟨.mustache read, after, ?_, rest, by rw [AttributeValue.withoutSpans, same]; rfl⟩
    simp [readValue, unquoted, opens, found]
  | concat parts span =>
    obtain ⟨read, call, member⟩ := legal
    have front : cursor.rest = '"' :: (parts.flatMap Part.write ++ '"' :: tail) := by
      simp [shape, AttributeValue.write]
    obtain ⟨value, after, found, rest, same⟩ :=
      readValue_of_parts (readsAsParts_write parts read) front
    rw [valueOfParts_of_mustache (mustache_mem_rereadParts member)] at same
    exact ⟨value, after, found, rest, same⟩

/-- What stands behind an attribute in a written start tag. -/
def EndsAttribute (tail : List Char) : Prop :=
  ∀ c ∈ tail.head?, isAttributeNameChar c = false ∧ c ≠ '='

theorem reread_of_isAbsent {value : AttributeValue} (absent : value.isAbsent = true) :
    value.reread = .text (.made "") := by
  have chars : value.chars? = some "" := by simpa [AttributeValue.isAbsent] using absent
  cases value with
  | text literal =>
    obtain ⟨text, span⟩ := literal
    obtain rfl : text = "" := Option.some.inj chars
    have none : nameParts (escapeQuotes "".toList) = [] := nameParts_of_plain (by decide) rfl
    rw [AttributeValue.reread, none]
    rfl
  | mustache call => cases chars
  | concat parts span => cases chars

end Cursor

namespace AttributeValue

/-- A value whose written form is read as one thing, spans apart, wherever it stands and whatever
stands behind it. -/
def ReadsAs (value expected : AttributeValue) : Prop :=
  ∀ (cursor : Cursor) (tail : List Char), cursor.rest = value.write ++ tail →
    ∃ read after, cursor.readValue = .ok (read, after) ∧ after.rest = tail ∧
      read.withoutSpans = expected

theorem readsAs_reread {value : AttributeValue} (legal : value.IsRead)
    (names : value.opensNames = true) : value.ReadsAs value.reread :=
  fun _ _ shape => Cursor.readValue_write legal names shape

/-- What is left out is the empty text, and is read as such. -/
theorem expected_of_isAbsent {value expected : AttributeValue} (absent : value.isAbsent = true)
    (reads : value.ReadsAs expected) : expected = .text (.made "") := by
  have plain : value.IsRead ∧ value.opensNames = true := by
    have chars : value.chars? = some "" := by simpa [isAbsent] using absent
    cases value with
    | text literal =>
      have empty : literal.chars = "" := Option.some.inj chars
      exact ⟨.inl (by rw [empty]; rfl), by rw [opensNames, empty]; rfl⟩
    | mustache call => cases chars
    | concat parts span => cases chars
  obtain ⟨read, after, found, -, same⟩ := reads ⟨value.write, .start⟩ [] (by simp)
  obtain ⟨read', after', found', -, same'⟩ :=
    readsAs_reread plain.1 plain.2 ⟨value.write, .start⟩ [] (by simp)
  rw [found] at found'
  cases found'
  rw [← same, same', Cursor.reread_of_isAbsent absent]

end AttributeValue

/-- An attribute with a name that was read and another value. -/
def Attribute.readAs (expected : Attribute → AttributeValue) (attr : Attribute) : Attribute :=
  ⟨attr.name, expected attr, .nowhere⟩

namespace Cursor

variable {cursor after last : Cursor}

/-- An attribute whose value is read as one thing is read to its end. -/
theorem readAttribute_of_readsAs {attr : Attribute} (expected : Attribute → AttributeValue)
    {tail : List Char} (legal : attr.IsRead) (reads : attr.value.ReadsAs (expected attr))
    (ended : EndsAttribute tail) (shape : ' ' :: cursor.rest = attr.write ++ tail) :
    ∃ read after, cursor.readAttribute = .ok (read, after) ∧ after.rest = tail ∧
      read.withoutSpans = attr.readAs expected := by
  obtain ⟨name, value, span⟩ := attr
  have filled : name.toList.isEmpty = false := by simpa using legal.filled
  by_cases absent : value.isAbsent = true
  · have front : cursor.rest = name.toList ++ tail := by
      simpa [Attribute.write, absent] using shape
    have taken : cursor.run isAttributeNameChar = name.toList :=
      run_of_shape front legal.named fun c first => (ended c first).1
    have behind := rest_skip front
    have alone : (cursor.skip name.toList.length).eat? ['='] = none := by
      apply eat?_eq_none_iff.mpr
      rw [behind]
      rintro ⟨others, rfl⟩
      exact (ended '=' rfl).2 rfl
    obtain ⟨read, found, same⟩ : ∃ read, cursor.readAttribute =
        .ok (read, cursor.skip name.toList.length) ∧
        read.withoutSpans = ⟨name, .text (.made ""), .nowhere⟩ := by
      simp only [readAttribute, taken, filled, alone, Bool.false_eq_true, if_false]
      refine ⟨_, rfl, ?_⟩
      simp [Attribute.withoutSpans, AttributeValue.withoutSpans]
    have value' := AttributeValue.expected_of_isAbsent absent reads
    exact ⟨read, _, found, behind, by rw [same, Attribute.readAs, value']⟩
  · have front : cursor.rest = name.toList ++ ('=' :: (value.write ++ tail)) := by
      simpa [Attribute.write, absent] using shape
    have taken : cursor.run isAttributeNameChar = name.toList := by
      apply run_of_shape front legal.named
      rintro _ ⟨⟩
      decide
    have behind : (cursor.skip name.toList.length).rest = ['='] ++ (value.write ++ tail) :=
      rest_skip front
    have eaten := eat?_of_shape behind
    obtain ⟨read, after, found, rest, same⟩ := reads _ _ (rest_skip behind)
    refine ⟨⟨name, read, cursor.position, after.position⟩, after, ?_, rest, ?_⟩
    · simp only [readAttribute, taken, filled, eaten, found, Bool.false_eq_true, if_false,
        String.ofList_toList]
    · rw [Attribute.withoutSpans, same, Attribute.readAs]

theorem readAttribute_write {attr : Attribute} {tail : List Char} (legal : attr.IsRead)
    (names : attr.value.opensNames = true) (ended : EndsAttribute tail)
    (shape : ' ' :: cursor.rest = attr.write ++ tail) :
    ∃ read after, cursor.readAttribute = .ok (read, after) ∧ after.rest = tail ∧
      read.withoutSpans = attr.reread :=
  readAttribute_of_readsAs (fun attr => attr.value.reread) legal
    (AttributeValue.readsAs_reread legal.value names) ended shape

/-- Where an attribute begins no start tag ends. -/
theorem unclosed_of_head {c : Char} {rest : List Char} (shape : cursor.rest = c :: rest)
    (named : isAttributeNameChar c = true) :
    cursor.sees ['/', '>'] = false ∧ cursor.sees ['>'] = false ∧ cursor.atEnd = false := by
  have slash : c ≠ '/' := by
    rintro rfl
    exact absurd named (by decide)
  have angle : c ≠ '>' := by
    rintro rfl
    exact absurd named (by decide)
  simp [sees, atEnd, shape, List.isPrefixOf, Ne.symm slash, Ne.symm angle]

/-- Behind a blank a name begins an attribute, and no end of the start tag. -/
theorem attribute_next {c : Char} {text : List Char} (shape : cursor.rest = ' ' :: c :: text)
    (named : isAttributeNameChar c = true) :
    cursor.skipBlank.rest = c :: text ∧ cursor.skipBlank.sees ['/', '>'] = false ∧
      cursor.skipBlank.sees ['>'] = false ∧ cursor.skipBlank.atEnd = false := by
  have front := rest_skipBlank_space shape (not_blank_of_isAttributeNameChar named)
  exact ⟨front, unclosed_of_head front named⟩

theorem readAttributes_of_attribute {tag : String} {attr : Attribute} {attrs : List Attribute}
    {closing : Bool} {c : Char} {text : List Char} (shape : cursor.rest = ' ' :: c :: text)
    (named : isAttributeNameChar c = true)
    (found : cursor.skipBlank.readAttribute = .ok (attr, after))
    (ran : after.readAttributes tag = .ok (attrs, closing, last)) :
    cursor.readAttributes tag = .ok (attr :: attrs, closing, last) := by
  obtain ⟨-, unclosed, open', filled⟩ := attribute_next shape named
  rw [readAttributes_eq]
  simp only [unclosed, open', filled, Bool.false_eq_true, if_false, found, ran]

/-- How a written start tag ends. -/
def endOfTag (closing : Bool) : List Char := if closing then [' ', '/', '>'] else ['>']

theorem head?_attributes {attrs : List Attribute} {closing : Bool} {tail : List Char} {c : Char}
    (first : c ∈ (attrs.flatMap Attribute.write ++ (endOfTag closing ++ tail)).head?) :
    c = ' ' ∨ c = '>' := by
  cases attrs with
  | nil =>
    cases closing with
    | true => exact .inl (Option.some.inj first).symm
    | false => exact .inr (Option.some.inj first).symm
  | cons attr attrs => exact .inl (Option.some.inj first).symm

theorem endsAttribute_attributes (attrs : List Attribute) (closing : Bool) (tail : List Char) :
    EndsAttribute (attrs.flatMap Attribute.write ++ (endOfTag closing ++ tail)) := by
  intro c first
  rcases head?_attributes first with rfl | rfl <;> decide

/-- Attributes whose values are read as one thing each are read up to the end of the start tag. -/
theorem readAttributes_of_readsAs {attrs : List Attribute} (expected : Attribute → AttributeValue)
    (tag : String) (closing : Bool) {tail : List Char} (legal : ∀ attr ∈ attrs, attr.IsRead)
    (reads : ∀ attr ∈ attrs, attr.value.ReadsAs (expected attr))
    (shape : cursor.rest = attrs.flatMap Attribute.write ++ (endOfTag closing ++ tail)) :
    ∃ read after, cursor.readAttributes tag = .ok (read, closing, after) ∧ after.rest = tail ∧
      read.map Attribute.withoutSpans = attrs.map (Attribute.readAs expected) := by
  induction attrs generalizing cursor with
  | nil =>
    cases closing with
    | true =>
      have front := rest_skipBlank_space shape (by decide)
      have closed : cursor.skipBlank.sees ['/', '>'] = true := sees_iff.mpr ⟨tail, front.symm⟩
      refine ⟨[], cursor.skipBlank.skip 2, ?_, by simp [skip, front], rfl⟩
      rw [readAttributes]
      simp [closed]
    | false =>
      have front := rest_skipBlank_cons shape (by decide)
      have ended : cursor.skipBlank.sees ['>'] = true := sees_iff.mpr ⟨tail, front.symm⟩
      have unclosed : cursor.skipBlank.sees ['/', '>'] = false := by
        simp [sees, front, List.isPrefixOf]
      refine ⟨[], cursor.skipBlank.skip 1, ?_, by simp [skip, front], rfl⟩
      rw [readAttributes]
      simp [unclosed, ended]
  | cons attr attrs ih =>
    have own := legal attr List.mem_cons_self
    obtain ⟨c, letters, word, first⟩ := own.exists_first
    have written : attr.write =
        ' ' :: c :: (letters ++ if attr.value.isAbsent then [] else '=' :: attr.value.write) := by
      simp only [Attribute.write, word, List.cons_append]
    rw [List.flatMap_cons, List.append_assoc] at shape
    have whole : cursor.rest = ' ' ::
        c :: ((letters ++ if attr.value.isAbsent then [] else '=' :: attr.value.write) ++
          (attrs.flatMap Attribute.write ++ (endOfTag closing ++ tail))) := by
      rw [shape, written]
      rfl
    obtain ⟨front, -⟩ := attribute_next whole first
    have spaced : ' ' :: cursor.skipBlank.rest =
        attr.write ++ (attrs.flatMap Attribute.write ++ (endOfTag closing ++ tail)) := by
      rw [front, written]
      rfl
    have ended := endsAttribute_attributes attrs closing tail
    obtain ⟨read, behind, found, rest, same⟩ :=
      readAttribute_of_readsAs expected own (reads attr List.mem_cons_self) ended spaced
    obtain ⟨others, after, ran, left, kept⟩ := ih
      (fun other member => legal other (List.mem_cons_of_mem attr member))
      (fun other member => reads other (List.mem_cons_of_mem attr member)) rest
    refine ⟨read :: others, after, readAttributes_of_attribute whole first found ran, left, ?_⟩
    rw [List.map_cons, same, kept, List.map_cons]

/-- The written attributes of a start tag are read again. -/
theorem readAttributes_write {attrs : List Attribute} (tag : String) (closing : Bool)
    {tail : List Char} (legal : ∀ attr ∈ attrs, attr.IsRead)
    (names : ∀ attr ∈ attrs, attr.value.opensNames = true)
    (shape : cursor.rest = attrs.flatMap Attribute.write ++ (endOfTag closing ++ tail)) :
    ∃ read after, cursor.readAttributes tag = .ok (read, closing, after) ∧ after.rest = tail ∧
      read.map Attribute.withoutSpans = attrs.map Attribute.reread :=
  readAttributes_of_readsAs (fun attr => attr.value.reread) tag closing legal
    (fun attr member => AttributeValue.readsAs_reread (legal attr member).value (names attr member))
    shape

end Cursor

end LayoutMarkup
