import LayoutMarkup.Proofs.Call.Extent
import LayoutMarkup.Proofs.Source.Order
import LayoutMarkup.Proofs.Source.Stretch

/-! Start tags over the text they were read from. An attribute covers its name, an equals sign and what
its value covers; a quoted value covers its quotes and what its parts cover one after the other; a start
tag covers its attributes, blanks between them and the bracket that ends it. -/

namespace LayoutMarkup

/-- The quote that a text begins with, or nothing. -/
def openingQuote : List Char → List Char
  | [] => []
  | c :: _ => if c = '"' ∨ c = '\'' then [c] else []

/-- What the text of a part of a value has to be. -/
def Part.Holds (part : Part) (text : List Char) : Prop :=
  match part with
  | .text literal => literal.chars.toList = text
  | .mustache _ => True

/-- Parts of a value cover a text one after the other, none of them an empty one. -/
def PartsCover : List Part → Position → List Char → Prop
  | [], _, text => text = []
  | part :: rest, start, text =>
    ∃ first others, text = first ++ others ∧ first ≠ [] ∧ part.span = ⟨start, start.after first⟩ ∧
      part.Holds first ∧ PartsCover rest (start.after first) others

/-- A value covers a text: what is between the quotes, if there are quotes, is what the value holds. -/
def AttributeValue.Covers (value : AttributeValue) (start : Position) (text : List Char) : Prop :=
  value.span = ⟨start, start.after text⟩ ∧
    match value with
    | .text literal => text = openingQuote text ++ literal.chars.toList ++ openingQuote text
    | .mustache _ => True
    | .concat parts _ =>
      ∃ quote inner, (quote = '"' ∨ quote = '\'') ∧ text = quote :: inner ++ [quote] ∧
        PartsCover parts (start.next quote) inner

/-- An attribute covers a text: its name and, behind an equals sign, its value; without the sign the
value is the nothing behind the name. -/
def Attribute.Covers (attr : Attribute) (start : Position) (text : List Char) : Prop :=
  attr.span = ⟨start, start.after text⟩ ∧ attr.name.toList ≠ [] ∧
    ∃ sign value, text = attr.name.toList ++ sign ++ value ∧
      (sign = ['='] ∨ sign = [] ∧ value = []) ∧
      attr.value.Covers (start.after (attr.name.toList ++ sign)) value

/-- Attributes cover the text of a start tag behind its name. -/
def AttributesCover : List Attribute → Position → List Char → Prop
  | [], _, text =>
    ∃ blanks closing, text = blanks ++ closing ∧ (∀ c ∈ blanks, Unicode.isBlank c = true) ∧
      (closing = ['>'] ∨ closing = ['/', '>'])
  | attr :: rest, start, text =>
    ∃ blanks first others, text = blanks ++ (first ++ others) ∧
      (∀ c ∈ blanks, Unicode.isBlank c = true) ∧ attr.Covers (start.after blanks) first ∧
      AttributesCover rest ((start.after blanks).after first) others

/-- A start tag that holds attributes. -/
def IsStartTag (tag : String) (attributes : List Attribute) (start : Position) (text : List Char) :
    Prop :=
  ∃ rest, text = '<' :: tag.toList ++ rest ∧
    AttributesCover attributes (start.after ('<' :: tag.toList)) rest

theorem IsStartTag.front {tag : String} {attributes : List Attribute} {start : Position}
    {text : List Char} (opens : IsStartTag tag attributes start text) : '<' :: tag.toList <+: text := by
  obtain ⟨rest, rfl, -⟩ := opens
  exact List.prefix_append _ _

theorem openingQuote_of_prefix {text whole : List Char} (front : text <+: whole)
    (bare : openingQuote whole = []) : openingQuote text = [] := by
  cases text with
  | nil => rfl
  | cons c text =>
    obtain ⟨tail, rfl⟩ := front
    exact bare

section Parts

variable {parts others : List Part} {start : Position} {text : List Char}

theorem partsCover_ofStretch {cursor after : Cursor} (passed : cursor.Passes text after) :
    PartsCover (Part.ofStretch text ⟨cursor.position, after.position⟩) cursor.position text := by
  unfold Part.ofStretch
  split
  · rename_i empty
    exact List.isEmpty_iff.mp empty
  · rename_i filled
    exact ⟨text, [], by simp, by simpa using filled, congrArg _ passed.position,
      String.toList_ofList, rfl⟩

theorem PartsCover.append {behind : List Char} (one : PartsCover parts start text)
    (two : PartsCover others (start.after text) behind) :
    PartsCover (parts ++ others) start (text ++ behind) := by
  induction parts generalizing start text with
  | nil =>
    obtain rfl : text = [] := one
    exact two
  | cons part rest ih =>
    obtain ⟨first, tail, rfl, filled, span, holds, later⟩ := one
    rw [Position.after_append] at two
    exact ⟨first, tail ++ behind, List.append_assoc _ _ _, filled, span, holds, ih later two⟩

end Parts

/-! ### What covers a text stands in order in it -/

section InOrder

variable {start : Position} {text : List Char}

theorem PartsCover.inOrder {parts : List Part} (covered : PartsCover parts start text) :
    InOrder start (parts.map Part.span) (start.after text) := by
  induction parts generalizing start text with
  | nil =>
    obtain rfl : text = [] := covered
    exact start.upTo_refl
  | cons part rest ih =>
    obtain ⟨first, others, rfl, -, span, -, later⟩ := covered
    rw [List.map_cons, span, Position.after_append]
    exact (InOrder.whole (Position.upTo_after _ _)).append (ih later)

/-- The parts of a value stand between its quotes. -/
theorem AttributeValue.Covers.inOrder {parts : List Part} {span : Span}
    (covered : (AttributeValue.concat parts span).Covers start text) :
    InOrder span.start (parts.map Part.span) span.stop := by
  obtain ⟨place, quote, inner, -, rfl, covered⟩ := covered
  obtain rfl : span = _ := place
  have opened : start.UpTo (start.next quote) := start.upTo_after [quote]
  have inside := covered.inOrder.of_earlier opened
  rw [List.cons_append, Position.after_cons, Position.after_append]
  exact inside.of_later (Position.upTo_after _ _)

theorem Attribute.Covers.inOrder {attr : Attribute} (covered : attr.Covers start text) :
    InOrder attr.span.start [attr.value.span] attr.span.stop := by
  obtain ⟨span, -, sign, value, rfl, -, inside⟩ := covered
  rw [span, inside.1, Position.after_append]
  exact (InOrder.whole (Position.upTo_after _ _)).of_earlier (Position.upTo_after _ _)

/-- Attributes that cover a text end before its end. -/
theorem AttributesCover.inOrder {attributes : List Attribute}
    (covered : AttributesCover attributes start text) :
    ∃ stop, InOrder start (attributes.map Attribute.span) stop ∧ stop.Before (start.after text) := by
  induction attributes generalizing start text with
  | nil =>
    obtain ⟨blanks, closing, rfl, -, ended⟩ := covered
    refine ⟨start, start.upTo_refl, Position.before_after _ ?_⟩
    rcases ended with rfl | rfl <;> simp
  | cons attr rest ih =>
    obtain ⟨blanks, first, others, rfl, -, own, later⟩ := covered
    obtain ⟨stop, ordered, ends⟩ := ih later
    rw [Position.after_append, Position.after_append, List.map_cons, own.1]
    have gap : start.UpTo (start.after blanks) := Position.upTo_after _ _
    have here := (InOrder.whole (Position.upTo_after (start.after blanks) first)).of_earlier gap
    exact ⟨stop, here.append ordered, ends⟩

end InOrder

namespace Cursor

variable {cursor after last : Cursor}

theorem passes_literalStretch (cursor : Cursor) (quote : Char) :
    cursor.Passes (literalStretch quote cursor.rest)
      (cursor.skip (literalStretch quote cursor.rest).length) := by
  rw [literalStretch_eq_stretch]
  obtain ⟨tail, shape, -⟩ :=
    stretch_spec (fun rest => rest.head? = some quote || startsMustache rest) cursor.rest
  exact passes_of_prefix ⟨tail, shape.symm⟩

theorem passes_of_peek? {c : Char} (peeked : cursor.peek? = some c) :
    cursor.Passes [c] (cursor.skip 1) := by
  obtain ⟨rest, shape⟩ := List.head?_eq_some_iff.mp peeked
  exact passes_of_prefix ⟨rest, shape.symm⟩

/-- A text that was passed has a character if less is left behind it. -/
theorem Passes.ne_nil {text : List Char} (passed : cursor.Passes text after)
    (shorter : after.rest.length < cursor.rest.length) : text ≠ [] := by
  rintro rfl
  rw [passed.rest] at shorter
  exact Nat.lt_irrefl _ shorter

/-- The parts of a value cover what is read up to the closing quote. -/
theorem covers_of_readParts {quote : Char} {parts : List Part}
    (found : cursor.readParts quote = .ok (parts, last)) :
    last.peek? = some quote ∧
      ∃ text, cursor.Passes text last ∧ PartsCover parts cursor.position text := by
  fun_induction readParts cursor quote generalizing parts last with
  | case1 => cases found
  | case2 cursor stretch behind =>
    rename_i peeked
    cases found
    have passed : cursor.Passes stretch behind := cursor.passes_literalStretch quote
    exact ⟨peeked, stretch, passed, partsCover_ofStretch passed⟩
  | case3 => cases found
  | case4 => cases found
  | case5 cursor stretch behind =>
    rename_i literal c peeked other call after step rest last' ran ih
    cases found
    obtain ⟨closes, tail, onward, later⟩ := ih ran
    obtain ⟨⟨mustache, passed⟩, span⟩ := span_of_readMustache step
    have front : cursor.Passes stretch behind := cursor.passes_literalStretch quote
    refine ⟨closes, stretch ++ (mustache ++ tail), front.trans (passed.trans onward), ?_⟩
    apply PartsCover.append (partsCover_ofStretch front)
    rw [passed.position] at span later
    rw [← front.position]
    exact ⟨mustache, tail, rfl, passed.ne_nil (length_of_readMustache step), span, trivial, later⟩

theorem exists_quote_of_sees (seen : (cursor.sees ['"'] || cursor.sees ['\'']) = true) :
    ∃ quote, (quote = '"' ∨ quote = '\'') ∧ cursor.peek? = some quote := by
  simp only [Bool.or_eq_true, sees_iff] at seen
  rcases seen with ⟨rest, shape⟩ | ⟨rest, shape⟩
  · exact ⟨'"', .inl rfl, by rw [peek?, ← shape]; rfl⟩
  · exact ⟨'\'', .inr rfl, by rw [peek?, ← shape]; rfl⟩

theorem openingQuote_of_sees (unseen : (cursor.sees ['"'] || cursor.sees ['\'']) = false) :
    openingQuote cursor.rest = [] := by
  simp only [Bool.or_eq_false_iff, sees] at unseen
  cases rest : cursor.rest with
  | nil => rfl
  | cons c tail =>
    rw [rest] at unseen
    have other : ¬ (c = '"' ∨ c = '\'') := by
      rintro (rfl | rfl)
      · exact absurd unseen.1 (by simp)
      · exact absurd unseen.2 (by simp)
    exact if_neg other

/-- Quoted parts make up a value that covers them and the quotes. -/
theorem covers_valueOfParts {parts : List Part} {start : Position} {quote : Char} {inner : List Char}
    (isQuote : quote = '"' ∨ quote = '\'') (covered : PartsCover parts (start.next quote) inner) :
    (valueOfParts parts ⟨start, start.after (quote :: inner ++ [quote])⟩).Covers start
      (quote :: inner ++ [quote]) := by
  have opens : openingQuote (quote :: inner ++ [quote]) = [quote] := if_pos isQuote
  match parts with
  | [] =>
    obtain rfl : inner = [] := covered
    exact ⟨rfl, by rw [opens]; rfl⟩
  | [.text literal] =>
    obtain ⟨first, others, rfl, -, -, chars, rfl⟩ := covered
    refine ⟨rfl, ?_⟩
    rw [opens, List.append_nil]
    exact congrArg (fun chars => [quote] ++ chars ++ [quote]) chars.symm
  | [.mustache call] => exact ⟨rfl, quote, inner, isQuote, rfl, covered⟩
  | .mustache call :: second :: rest => exact ⟨rfl, quote, inner, isQuote, rfl, covered⟩
  | .text literal :: second :: rest => exact ⟨rfl, quote, inner, isQuote, rfl, covered⟩

theorem covers_of_readValue {value : AttributeValue}
    (found : cursor.readValue = .ok (value, after)) :
    ∃ text, cursor.Passes text after ∧ value.Covers cursor.position text := by
  simp only [readValue] at found
  repeat' split at found
  · cases found
  · rename_i quoted _ parts last ran
    cases found
    obtain ⟨quote, isQuote, peeked⟩ := exists_quote_of_sees quoted
    rw [peeked, Option.getD_some] at ran
    obtain ⟨closes, inner, passed, covered⟩ := covers_of_readParts ran
    have front := passes_of_peek? peeked
    have whole := (front.trans passed).trans (passes_of_peek? closes)
    refine ⟨_, whole, ?_⟩
    rw [whole.position]
    rw [front.position] at covered
    exact covers_valueOfParts isQuote covered
  · cases found
  · rename_i step
    cases found
    obtain ⟨⟨text, passed⟩, span⟩ := span_of_readMustache step
    rw [passed.position] at span
    exact ⟨text, passed, span, trivial⟩
  · rename_i unquoted _
    cases found
    have passed := cursor.passes_run isBareValueChar
    have bare : openingQuote (cursor.run isBareValueChar) = [] :=
      openingQuote_of_prefix (List.takeWhile_prefix _) (openingQuote_of_sees (by simpa using unquoted))
    exact ⟨_, passed, congrArg _ passed.position, by simp [bare]⟩

theorem covers_of_readAttribute {attr : Attribute}
    (found : cursor.readAttribute = .ok (attr, after)) :
    ∃ text, cursor.Passes text after ∧ attr.Covers cursor.position text := by
  have named := cursor.passes_run isAttributeNameChar
  have name : (String.ofList (cursor.run isAttributeNameChar)).toList = _ := String.toList_ofList
  simp only [readAttribute] at found
  split at found
  · cases found
  · rename_i filled
    have filled : (String.ofList (cursor.run isAttributeNameChar)).toList ≠ [] := by simpa using filled
    split at found
    · cases found
      refine ⟨_, named, congrArg _ named.position, filled, [], [], by simp [name],
        .inr ⟨rfl, rfl⟩, ?_⟩
      rw [name, List.append_nil, ← named.position]
      exact ⟨rfl, rfl⟩
    · rename_i eaten
      split at found
      · cases found
      · rename_i value
        cases found
        obtain ⟨text, passed, covered⟩ := covers_of_readValue value
        have front := named.trans (passes_of_eat? eaten)
        have whole := front.trans passed
        refine ⟨_, whole, congrArg _ whole.position, filled, ['='], text, by rw [name],
          .inl rfl, ?_⟩
        rw [name, ← front.position]
        exact covered

/-- Attributes cover what is read up to the end of their start tag. -/
theorem covers_of_readAttributes {tag : String} {attrs : List Attribute} {selfClosing : Bool}
    (found : cursor.readAttributes tag = .ok (attrs, selfClosing, last)) :
    ∃ text, cursor.Passes text last ∧ AttributesCover attrs cursor.position text := by
  fun_induction readAttributes cursor tag generalizing attrs selfClosing last with
  | case1 cursor front =>
    rename_i closes
    cases found
    obtain ⟨blanks, blank, gap⟩ := cursor.exists_passes_skipBlank
    have ended : front.Passes ['/', '>'] _ := passes_of_prefix (sees_iff.mp closes)
    exact ⟨_, gap.trans ended, blanks, _, rfl, blank, .inr rfl⟩
  | case2 cursor front =>
    rename_i closes
    cases found
    obtain ⟨blanks, blank, gap⟩ := cursor.exists_passes_skipBlank
    have ended : front.Passes ['>'] _ := passes_of_prefix (sees_iff.mp closes)
    exact ⟨_, gap.trans ended, blanks, _, rfl, blank, .inl rfl⟩
  | case3 => cases found
  | case4 => cases found
  | case5 => cases found
  | case6 cursor front =>
    rename_i attr behind step rest _ _ ran ih
    cases found
    obtain ⟨blanks, blank, gap⟩ := cursor.exists_passes_skipBlank
    obtain ⟨first, passed, own⟩ := covers_of_readAttribute step
    obtain ⟨others, onward, later⟩ := ih ran
    refine ⟨_, gap.trans (passed.trans onward), blanks, first, others, rfl, blank, ?_, ?_⟩
    · rw [← gap.position]
      exact own
    · rw [← gap.position, ← passed.position]
      exact later

end Cursor

end LayoutMarkup
