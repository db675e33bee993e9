import LayoutMarkup.Proofs.Template.Names
import LayoutMarkup.Proofs.Template.Rewriting

/-! Start tags that are rewritten as they were. If a written start tag is read, and the written form of
what was read stands in the same place, then every attribute is reprintable and nothing else was read. -/

namespace LayoutMarkup

open Cursor (valueOfParts EndsAttribute)

theorem AttributeValue.opensNames_withoutSpans (value : AttributeValue) :
    value.withoutSpans.opensNames = value.opensNames := by
  cases value <;> rfl

theorem AttributeValue.opensNames_reread {value : AttributeValue} (names : value.opensNames = true) :
    value.reread.opensNames = true := by
  cases value with
  | text literal =>
    have inner : holdsNames (escapeQuotes literal.chars.toList) = true := by
      rw [holdsNames_escapeQuotes]
      exact names
    rw [reread]
    rcases holdsNames_cases (not_mem_escapeQuotes _) inner with plain | ⟨_, word, _, -, -, -, parts⟩
    · rw [nameParts_of_plain (not_mem_escapeQuotes _) plain]
      unfold Part.ofStretch
      split
      · rfl
      · simpa [valueOfParts, opensNames] using inner
    · have member : Part.mustache (.ofWord word) ∈ nameParts (escapeQuotes literal.chars.toList) := by
        rw [parts]
        simp
      rw [valueOfParts_of_mustache member]
      rfl
  | mustache call => rfl
  | concat parts span => rfl

namespace Cursor

variable {cursor after last : Cursor} {tail rest : List Char}

/-- A value behind a double quote is made of the parts before the next one. -/
theorem exists_parts_of_readValue {text : List Char} {value : AttributeValue}
    (shape : cursor.rest = '"' :: text) (found : cursor.readValue = .ok (value, after)) :
    ∃ parts last span, (cursor.skip 1).readParts '"' = .ok (parts, last) ∧
      value = valueOfParts parts span := by
  have quoted : cursor.sees ['"'] = true := sees_iff.mpr ⟨text, shape.symm⟩
  have peeked : cursor.peek? = some '"' := by simp [peek?, shape]
  simp only [readValue, quoted, peeked, Bool.true_or, if_true, Option.getD_some] at found
  split at found
  · cases found
  · rename_i parts last ran
    cases found
    exact ⟨parts, last, _, ran, rfl⟩

/-- Behind its name and an equals sign an attribute has a value. -/
theorem exists_value_of_readAttribute {name text : List Char} {read : Attribute}
    (filled : name ≠ []) (named : ∀ c ∈ name, isAttributeNameChar c = true)
    (shape : cursor.rest = name ++ '=' :: text)
    (found : cursor.readAttribute = .ok (read, after)) :
    ∃ front : Cursor, front.rest = text ∧ read.name = String.ofList name ∧
      front.readValue = .ok (read.value, after) := by
  have taken : cursor.run isAttributeNameChar = name := by
    apply run_of_shape shape named
    rintro _ ⟨⟩
    decide
  have behind : (cursor.skip name.length).rest = ['='] ++ text := rest_skip shape
  have present : name.isEmpty = false := by simpa using filled
  simp only [readAttribute, taken, present, eat?_of_shape behind, Bool.false_eq_true,
    if_false] at found
  split at found
  · cases found
  · rename_i value _ step
    cases found
    exact ⟨_, rest_skip behind, rfl, step⟩

/-- If an attribute is read as one that is written as it was, its text opens only names. -/
theorem opensNames_of_readAttribute {attr read : Attribute} (legal : attr.IsRead)
    (ended : EndsAttribute rest) (shape : ' ' :: cursor.rest = attr.write ++ tail)
    (found : cursor.readAttribute = .ok (read, after))
    (again : ' ' :: cursor.rest = read.write ++ rest) : attr.value.opensNames = true := by
  obtain ⟨name, value, span⟩ := attr
  cases value with
  | mustache call => rfl
  | concat parts span => rfl
  | text literal =>
    rcases legal.value with plain | bare
    · exact holdsNames_of_plain plain
    by_cases absent : (AttributeValue.text literal).isAbsent = true
    · obtain ⟨span, same⟩ := AttributeValue.isAbsent_iff.mp absent
      rw [same]
      rfl
    have unblank : ∀ c ∈ escapeQuotes literal.chars.toList, Unicode.isBlank c = false := by
      intro c member
      obtain ⟨d, inside, written⟩ := List.mem_flatMap.mp member
      split at written
      · have letters : ∀ e ∈ ['&', 'q', 'u', 'o', 't', ';'], Unicode.isBlank e = false := by decide
        exact letters c written
      · obtain rfl := List.mem_singleton.mp written
        have plain := bare c inside
        simp only [isBareValueChar, Bool.and_eq_true, Bool.not_eq_true'] at plain
        exact plain.1.1
    have front : cursor.rest = name.toList ++
        ('=' :: '"' :: (escapeQuotes literal.chars.toList ++ '"' :: tail)) := by
      simpa [Attribute.write, absent, AttributeValue.write] using shape
    obtain ⟨inner, behind, same, step⟩ :=
      exists_value_of_readAttribute legal.filled legal.named front found
    obtain ⟨parts, last, around, ran, value⟩ := exists_parts_of_readValue behind step
    have text : (inner.skip 1).rest = escapeQuotes literal.chars.toList ++ '"' :: tail := by
      simp [skip, behind]
    have written : (inner.skip 1).rest = parts.flatMap Part.write ++ '"' :: rest := by
      rw [text]
      rw [front, Attribute.write, same, value, write_valueOfParts] at again
      simp only [String.toList_ofList, List.cons_append, List.cons.injEq, true_and,
        List.append_assoc] at again
      have value' := List.append_cancel_left again
      split at value'
      · rw [List.nil_append] at value'
        exact absurd rfl (ended '=' (by rw [← value']; rfl)).2
      · simpa using value'
    have names := holdsNames_of_readParts (not_mem_escapeQuotes _) unblank text ran written
    rwa [holdsNames_escapeQuotes] at names

/-- If an attribute is read as one that is written as it was, it is reprintable. -/
theorem isReprintable_of_readAttribute {attr read : Attribute} (legal : attr.IsRead)
    (ended : EndsAttribute tail) (ended' : EndsAttribute rest)
    (shape : ' ' :: cursor.rest = attr.write ++ tail)
    (found : cursor.readAttribute = .ok (read, after))
    (again : ' ' :: cursor.rest = read.write ++ rest) :
    attr.value.isReprintable = true ∧ after.rest = tail ∧ rest = tail := by
  have names := opensNames_of_readAttribute legal ended' shape found again
  obtain ⟨first, last, found', left, same⟩ := readAttribute_write legal names ended shape
  rw [found] at found'
  cases found'
  have names' : read.value.opensNames = true := by
    have value := congrArg Attribute.value same
    simp only [Attribute.withoutSpans, Attribute.reread] at value
    rw [← AttributeValue.opensNames_withoutSpans, value]
    exact AttributeValue.opensNames_reread names
  obtain ⟨second, last', found', left', -⟩ :=
    readAttribute_write (isRead_of_readAttribute found) names' ended' again
  rw [found] at found'
  cases found'
  obtain rfl : rest = tail := left'.symm.trans left
  refine ⟨?_, left, rfl⟩
  apply Attribute.isReprintable_of_write_reread legal names
  rw [← same, Attribute.write_withoutSpans]
  exact List.append_cancel_right (again.symm.trans shape)

/-- Where a name comes next, an attribute is read before the others. -/
theorem attribute_of_readAttributes {c : Char} {text : List Char} {tag : String}
    {read : List Attribute} {closing : Bool} (shape : cursor.rest = ' ' :: c :: text)
    (named : isAttributeNameChar c = true)
    (found : cursor.readAttributes tag = .ok (read, closing, last)) :
    ∃ (front between : Cursor) (attr : Attribute) (others : List Attribute),
      front.rest = c :: text ∧ front.readAttribute = .ok (attr, between) ∧
      between.readAttributes tag = .ok (others, closing, last) ∧ read = attr :: others := by
  obtain ⟨front, unclosed, open', filled⟩ := attribute_next shape named
  rw [readAttributes] at found
  simp only [unclosed, open', filled, Bool.false_eq_true, if_false] at found
  split at found
  · cases found
  · rename_i attr between step
    split at found
    · cases found
    · rename_i others closing' last' ran
      cases found
      exact ⟨_, between, attr, others, front, step, ran, rfl⟩

/-- If attributes are read as ones that are written as they were, they are reprintable. -/
theorem isReprintable_of_readAttributes {attrs read : List Attribute} {tag : String}
    {closing closing' : Bool} (legal : ∀ attr ∈ attrs, attr.IsRead)
    (shape : cursor.rest = attrs.flatMap Attribute.write ++ (endOfTag closing ++ tail))
    (found : cursor.readAttributes tag = .ok (read, closing', last))
    (again : cursor.rest = read.flatMap Attribute.write ++ (endOfTag closing' ++ rest)) :
    (∀ attr ∈ attrs, attr.value.isReprintable = true) ∧ closing' = closing ∧ last.rest = tail ∧
      rest = tail := by
  induction attrs generalizing cursor read with
  | nil =>
    obtain ⟨none, last', found', left, same⟩ :=
      readAttributes_write tag closing (by simp) (by simp) shape
    rw [found] at found'
    cases found'
    obtain rfl := List.map_eq_nil_iff.mp same
    have rest_eq := List.append_cancel_left (shape.symm.trans again)
    exact ⟨by simp, rfl, left, (List.append_cancel_left rest_eq).symm⟩
  | cons attr attrs ih =>
    have own := legal attr List.mem_cons_self
    obtain ⟨c, letters, word, first⟩ := own.exists_first
    rw [List.flatMap_cons, List.append_assoc] at shape
    have whole : cursor.rest = ' ' :: c ::
        ((letters ++ if attr.value.isAbsent then [] else '=' :: attr.value.write) ++
          (attrs.flatMap Attribute.write ++ (endOfTag closing ++ tail))) := by
      rw [shape, Attribute.write, word]
      simp
    obtain ⟨front, between, attr', others, begins, step, ran, rfl⟩ :=
      attribute_of_readAttributes whole first found
    have spaced : ' ' :: front.rest = cursor.rest := by rw [begins, whole]
    rw [List.flatMap_cons, List.append_assoc] at again
    obtain ⟨same, left, rest_eq⟩ := isReprintable_of_readAttribute own
      (endsAttribute_attributes attrs closing tail)
      (endsAttribute_attributes others closing' rest) (spaced.trans shape) step (spaced.trans again)
    obtain ⟨sames, closed, ended, final⟩ :=
      ih (fun other member => legal other (List.mem_cons_of_mem attr member)) left ran
        (left.trans rest_eq.symm)
    refine ⟨?_, closed, ended, final⟩
    intro other member
    rcases List.mem_cons.mp member with rfl | later
    · exact same
    · exact sames other later

end Cursor

end LayoutMarkup
