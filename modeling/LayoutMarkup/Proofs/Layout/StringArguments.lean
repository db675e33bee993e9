import LayoutMarkup.Proofs.Layout.ComponentKeys

/-! String literals read back. A string is written between quotes with escapes, of which the reader drops
the backslash whatever stands behind it. So a string comes back exactly if no character of it is written
as a letter or a code; a line break is, and comes back as a letter. -/

namespace LayoutMarkup

open Lexeme Quoted

/-- A string is read back as one lexeme, whatever stands behind it. -/
theorem Cursor.readLexeme_string {value : String} {span : Span} {cursor : Cursor} {tail : List Char}
    (shape : cursor.rest = (Expression.string value span).write ++ tail) :
    ∃ span after, cursor.readLexeme = (.ok ⟨.string (rereadText value), span⟩, after) ∧
      after.rest = tail := by
  have front : cursor.rest = [] ++ (Quoted.text value.toList ++ tail) := shape
  exact readLexeme_of_read front (by simp) (read_quoted value.toList tail)

theorem Expression.strings_withSpan (value : Expression) (span : Span) :
    (value.withSpan span).strings = value.strings := by
  cases value with
  | call inner =>
    obtain ⟨path, params, hash, old⟩ := inner
    rfl
  | _ => rfl

theorem pairStrings_map_toPair (line : Nat) (attrs : List Attribute) :
    pairStrings (attrs.map (Attribute.toPair · line)) =
      attrs.flatMap fun attr => attr.value.toExpression.strings := by
  induction attrs with
  | nil => rfl
  | cons attr attrs ih =>
    rw [List.map_cons, Attribute.toPair, pairStrings, Expression.strings_withSpan, ih,
      List.flatMap_cons]

/-- The strings of a component are those of the arguments that the values of attributes become. -/
theorem Element.strings_toBlock (element : Element) :
    element.toBlock.call.strings =
      element.attributes.flatMap fun attr => attr.value.toExpression.strings := by
  cases made : element.toBlock.hash with
  | none =>
    rw [hash_toBlock_eq_none_iff] at made
    simp [toBlock, Block.call, Call.strings, paramStrings, hashStrings, made]
  | some hash =>
    have pairs := pairs_toBlock made
    obtain ⟨pairs', around⟩ := hash
    dsimp only at pairs
    have bare : element.toBlock.params = [] := rfl
    simp only [Block.call, Call.strings, bare, paramStrings, made, hashStrings, List.nil_append,
      pairs, pairStrings_map_toPair]

namespace Template

variable {source : String} {template : Template}

/-- What becomes of the strings of a template when what is printed of it is read. -/
structure StringsComeBack (template : Template) : Prop where
  /-- Every mustache and every opening of a block is read to its end, its strings each by itself. -/
  call : ∀ id node, template.get? id = some node → ∀ call ∈ node.calls,
    ∀ (cursor : Cursor) (start : Position) (tail : List Char),
      cursor.rest = call.write ++ '}' :: '}' :: tail →
      ∃ again after, cursor.readCall start = .ok (again, after) ∧ after.rest = tail ∧
        again.strings = call.strings.map rereadText
  /-- The text of an attribute that became a named argument is one string. -/
  text : ∀ id element, template.element? id = some element → ∀ attr ∈ element.attributes,
    ∀ chars, attr.value.chars? = some chars → ∀ (line : Nat) (cursor : Cursor) (tail : List Char),
      cursor.rest = (attr.toPair line).value.write ++ tail →
      ∃ span after, cursor.readLexeme = (.ok ⟨.string (rereadText chars), span⟩, after) ∧
        after.rest = tail
  /-- The opening of a component whose keys come back is read to its end, with the texts of its attributes
  and the strings in them each by itself. -/
  component : ∀ id element, template.element? id = some element → element.isComponent = true →
    (∀ attr ∈ element.attributes, IsKey attr.name.toList) →
    ∀ (reading : Tree.Reading) (cursor : Cursor) (tail : List Char),
      cursor.rest = element.toBlock.writeStart ++ tail →
      ∃ call after, reading.step cursor =
          .ok (reading.enter (.block call cursor.position after.position), after) ∧
        after.rest = tail ∧
        call.strings =
          (element.attributes.flatMap fun attr => attr.value.toExpression.strings).map rereadText
  /-- If each node keeps its kind, all that is printed can be read, and the strings at each id come back
  each by itself. -/
  whole : template.keepsKinds = true → ∃ text again, template.print = some text ∧
    Template.read text = .ok again ∧
    ∀ id, (again.get? id).map Node.strings =
      (template.get? id).map fun node => node.strings.map rereadText
  /-- So it is with what assembly leaves, if this is taken for what it is. -/
  assembled : template.IsAssemblable → ∃ rewritten text again,
    Pass.component.run template = (rewritten, none) ∧ rewritten.print = some text ∧
    Template.read text = .ok again ∧
    ∀ id, (again.get? id).map Node.strings =
      (rewritten.get? id).map fun node => node.strings.map rereadText

theorem stringsComeBack_of_read (found : read source = .ok template) : template.StringsComeBack where
  call id node here call member cursor start tail shape := by
    have met := Call.meets_of_implies Demands.asRead_implies_legible call
      (meets_of_mem_calls found here member)
    obtain ⟨again, after, reread, rest, same⟩ := Cursor.readCall_write start met shape
    refine ⟨again, after, reread, rest, ?_⟩
    rw [← again.strings_withoutSpans, same, call.strings_reread]
  text id element present attr member chars literal line cursor tail shape := by
    obtain ⟨name, value, span⟩ := attr
    cases value with
    | text own =>
      cases literal
      exact Cursor.readLexeme_string shape
    | mustache call => cases literal
    | concat parts around => cases literal
  component id element present component named reading cursor tail shape := by
    have read := (tagIsRead_of_read found present).attributes
    obtain ⟨-, -, call, after, reread, rest, same⟩ :=
      Tree.Reading.blockStart_written (element.meets_toBlock component read named) shape
    refine ⟨call, after, ?_, rest, ?_⟩
    · rw [reading.step_writeStart shape, Tree.Reading.openBlock, reread]
    · rw [← call.strings_withoutSpans, same, Call.strings_reread, element.strings_toBlock]
  whole keeps := by
    obtain ⟨text, again, printed, reread, back⟩ := get?_of_keepsKinds found keeps
    exact ⟨text, again, printed, reread, fun id => strings_of_get? (back id)⟩
  assembled able := by
    obtain ⟨rewritten, text, again, done, printed, reread, -, back⟩ :=
      get?_of_reread_component found able
    exact ⟨rewritten, text, again, done, printed, reread, fun id => strings_of_get? (back id)⟩

/-- A string is read back as one string, which is the same exactly if no character of it needs another
escape than a backslash. So it is with all strings in a template that was read, as it is printed and as
assembly leaves it. -/
theorem strings_come_back (found : read source = .ok template) :
    (∀ value : String,
      (∀ (span : Span) (cursor : Cursor) (tail : List Char),
        cursor.rest = (Expression.string value span).write ++ tail →
        ∃ span after, cursor.readLexeme = (.ok ⟨.string (rereadText value), span⟩, after) ∧
          after.rest = tail) ∧
      (rereadText value = value ↔ ∀ c ∈ value.toList, IsPlain c)) ∧
    template.StringsComeBack :=
  ⟨fun _ => ⟨fun _ _ _ shape => Cursor.readLexeme_string shape, rereadText_eq_iff⟩,
    stringsComeBack_of_read found⟩

/-- A quote and a backslash come back, but of a line break only a letter does. -/
theorem strings_come_back_of_line_break :
    ∃ template rewritten text again,
      read "<container a='b\nc' d='e\"'>\x7b\x7bf \"g\\\\\"\x7d\x7d</container>" = .ok template ∧
      Pass.component.run template = (rewritten, none) ∧ rewritten.print = some text ∧
      read text = .ok again ∧
      (rewritten.get? 1).map Node.strings = some ["g\\"] ∧
      (again.get? 1).map Node.strings = some ["g\\"] ∧
      (rewritten.get? 2).map Node.strings = some ["b\nc", "e\""] ∧
      (again.get? 2).map Node.strings = some ["bnc", "e\""] := by
  have facts : (read "<container a='b\nc' d='e\"'>\x7b\x7bf \"g\\\\\"\x7d\x7d</container>").toOption.any
      (fun template => template.canAssemble &&
        ((Pass.component.run template).1.get? 1).map Node.strings = some ["g\\"] &&
        ((Pass.component.run template).1.get? 2).map Node.strings = some ["b\nc", "e\""]) = true := by
    decide +kernel
  obtain ⟨template, found, checked⟩ := exists_of_any facts
  simp only [Bool.and_eq_true, decide_eq_true_eq] at checked
  obtain ⟨⟨able, one⟩, two⟩ := checked
  obtain ⟨rewritten, text, again, done, printed, reread, back⟩ :=
    (strings_come_back found).2.assembled (isAssemblable_of_canAssemble able)
  rw [done] at one two
  have kept : ["g\\"].map rereadText = ["g\\"] := by decide +kernel
  have lost : ["b\nc", "e\""].map rereadText = ["bnc", "e\""] := by decide +kernel
  have first := congrArg (Option.map (List.map rereadText)) one
  have second := congrArg (Option.map (List.map rereadText)) two
  rw [Option.map_map, Option.map_some, kept] at first
  rw [Option.map_map, Option.map_some, lost] at second
  exact ⟨template, rewritten, text, again, found, done, printed, reread, one,
    (back 1).trans first, two, (back 2).trans second⟩

end Template

end LayoutMarkup
