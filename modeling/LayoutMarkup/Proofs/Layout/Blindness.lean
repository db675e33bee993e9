import LayoutMarkup.Command.Compile
import LayoutMarkup.Proofs.Layout.Passes
import LayoutMarkup.Proofs.Layout.Pointwise
import LayoutMarkup.Proofs.Template.Blindness
import LayoutMarkup.Proofs.Template.Values

/-! Builds and spans. The passes of a build copy spans, shift them and compare their lines, and errors
tell the place of an element; but nothing else depends on a span. Layouts of one template that differ
in blanks and line breaks alone have the same outcome, up to spans and to the place in an error. -/

namespace LayoutMarkup

def LayoutError.withoutPosition (error : LayoutError) : LayoutError :=
  { error with position := .nowhere }

namespace AttributeValue

theorem chars?_withoutSpans (value : AttributeValue) : value.withoutSpans.chars? = value.chars? := by
  cases value <;> rfl

theorem write_withoutSpans (value : AttributeValue) : value.withoutSpans.write = value.write := by
  cases value with
  | text literal => rfl
  | mustache call => exact call.writeMustache_withoutSpans
  | concat parts span => simp only [withoutSpans, write, Part.flatMap_write_withoutSpans]

theorem describe_withoutSpans (value : AttributeValue) :
    value.withoutSpans.describe = value.describe := by
  rw [describe, chars?_withoutSpans, write_withoutSpans, describe]

theorem toExpression_withoutSpans (value : AttributeValue) :
    value.withoutSpans.toExpression = value.toExpression.withoutSpans := by
  cases value with
  | text literal => rfl
  | concat parts span => rfl
  | mustache call =>
    obtain ⟨path, params, hash, span⟩ := call
    simp only [withoutSpans, toExpression, isBare_withoutSpans]
    split <;> rfl

end AttributeValue

namespace Element

variable {element : Element}

theorem get?_withoutSpans (element : Element) (name : String) :
    element.withoutSpans.get? name = (element.get? name).map Attribute.withoutSpans :=
  List.find?_map

theorem has_withoutSpans (element : Element) (name : String) :
    element.withoutSpans.has name = element.has name := by
  rw [has, get?_withoutSpans, Option.isSome_map, has]

theorem remove_withoutSpans (element : Element) (name : String) :
    element.withoutSpans.remove name = (element.remove name).withoutSpans := by
  simp only [remove, withoutSpans, List.eraseP_map]
  rfl

theorem modify_withoutSpans (element : Element) (name : String) {change : Attribute → Attribute}
    (commutes : ∀ attr, change attr.withoutSpans = (change attr).withoutSpans) :
    element.withoutSpans.modify name change = (element.modify name change).withoutSpans := by
  have walk : ∀ attrs : List Attribute, modify.go name change (attrs.map Attribute.withoutSpans) =
      (modify.go name change attrs).map Attribute.withoutSpans := by
    intro attrs
    induction attrs with
    | nil => rfl
    | cons attr rest ih =>
      have same : attr.withoutSpans.name = attr.name := rfl
      rw [List.map_cons, modify.go, modify.go, same]
      split
      · rw [List.map_cons, commutes]
      · rw [List.map_cons, ih]
  simp only [modify, withoutSpans, walk]

theorem existingClass_withoutSpans (element : Element) :
    element.withoutSpans.existingClass = element.existingClass := by
  rw [existingClass, get?_withoutSpans, existingClass]
  cases element.get? "class" with
  | none => rfl
  | some attr =>
    have chars : attr.withoutSpans.value.chars? = attr.value.chars? := attr.value.chars?_withoutSpans
    simp only [Option.map_some, Option.bind_eq_bind, Option.bind_some, chars]

/-- A class that is written has no span of its own, and the attribute around it keeps what it has. -/
theorem setClass_withoutSpans (element : Element) (classes : String) :
    element.withoutSpans.setClass classes = (element.setClass classes).withoutSpans := by
  unfold setClass
  rw [has_withoutSpans]
  split
  · apply modify_withoutSpans
    intro ⟨name, value, span⟩
    cases value with
    | text literal => rfl
    | mustache call =>
      obtain ⟨path, params, hash, around⟩ := call
      rfl
    | concat parts around =>
      simp [Attribute.withoutSpans, AttributeValue.withoutSpans, partsWithoutSpans_append,
        partsWithoutSpans, Text.made]
  · simp [push, withoutSpans, Attribute.made, Attribute.withoutSpans, AttributeValue.withoutSpans,
      Text.made]

theorem isComponent_withoutSpans (element : Element) :
    element.withoutSpans.isComponent = element.isComponent := by
  rw [isComponent, has_withoutSpans, isComponent]
  rfl

end Element

namespace Expression

theorem withoutSpans_withSpan (value : Expression) (span : Span) :
    (value.withSpan span).withoutSpans = value.withoutSpans := by
  cases value with
  | path name => rfl
  | string value own => rfl
  | number value own => rfl
  | boolean value own => rfl
  | concat parts own => rfl
  | call inner =>
    obtain ⟨path, params, hash, own⟩ := inner
    rfl

end Expression

/-- The arguments that attributes become, without their spans, show only what the attributes say. -/
theorem pairsWithoutSpans_toPair (attrs : List Attribute) (line : Nat) :
    pairsWithoutSpans (attrs.map (Attribute.toPair · line)) =
      attrs.map fun attr => ⟨attr.name, attr.withoutSpans.value.toExpression, .nowhere⟩ := by
  induction attrs with
  | nil => rfl
  | cons attr rest ih =>
    rw [List.map_cons, List.map_cons, ← ih]
    simp only [Attribute.toPair, pairsWithoutSpans, Expression.withoutSpans_withSpan,
      Attribute.withoutSpans, AttributeValue.toExpression_withoutSpans]

/-- The call that an element becomes, told from the element without its spans. -/
def Element.toBareBlock (element : Element) : Block where
  path := .made element.componentName
  params := []
  hash :=
    if element.attributes.isEmpty then none
    else some ⟨element.attributes.map fun attr => ⟨attr.name, attr.value.toExpression, .nowhere⟩, .nowhere⟩
  bodySpan := .nowhere
  span := .nowhere

theorem Element.withoutSpans_toBlock (element : Element) :
    element.toBlock.withoutSpans = element.withoutSpans.toBareBlock := by
  have pairs := pairsWithoutSpans_toPair element.attributes element.span.start.line
  simp only [toBlock, Block.withoutSpans, toBareBlock, withoutSpans, List.isEmpty_map, List.map_map]
  congr 1
  split
  · rfl
  · rw [hashWithoutSpans_ofPairs, pairs]
    rfl

/-- Making components is blind for spans. -/
theorem isBlind_componentRule : componentRule.IsBlind LayoutError.withoutPosition := by
  intro first second same
  cases first with
  | program span =>
    cases second with
    | program _ => exact ⟨rfl, rfl⟩
    | element _ => cases same
    | block _ => cases same
  | block block =>
    cases second with
    | program _ => cases same
    | element _ => cases same
    | block _ => exact ⟨same, rfl⟩
  | element element =>
    cases second with
    | program _ => cases same
    | block _ => cases same
    | element other =>
      have alike : element.withoutSpans = other.withoutSpans := Head.element.inj same
      have component : element.isComponent = other.isComponent := by
        rw [← element.isComponent_withoutSpans, alike, other.isComponent_withoutSpans]
      refine ⟨?_, rfl⟩
      simp only [componentRule, component]
      split
      · simp only [Head.withoutSpans, Element.withoutSpans_toBlock, alike]
      · exact same

namespace Conversion

/-- A conversion of an element without its spans. -/
def withoutSpans (conversion : Conversion) : Conversion :=
  { conversion with element := conversion.element.withoutSpans }

theorem withoutSpans_after (entries : List ClassEntry) (conversion : Conversion) :
    (conversion.after entries).withoutSpans = conversion.withoutSpans.after entries := rfl

theorem result_withoutSpans (conversion : Conversion) :
    conversion.withoutSpans.result = conversion.result.withoutSpans := by
  obtain ⟨element, entries, refusal⟩ := conversion
  simp only [result, withoutSpans, apply_ite Element.withoutSpans, Element.setClass_withoutSpans]
  rfl

end Conversion

namespace Settings

theorem answer_withoutSpans (settings : Settings) (entry : Entry) (value : AttributeValue) :
    settings.answer entry value.withoutSpans = settings.answer entry value := by
  cases entry with
  | term term =>
    simp only [answer, Term.setting?, value.chars?_withoutSpans, value.describe_withoutSpans]
  | breakpoint breakpoint =>
    simp only [answer, value.chars?_withoutSpans, value.describe_withoutSpans]

theorem outcome_withoutSpans (settings : Settings) (element : Element) (entry : Entry) :
    settings.outcome element.withoutSpans entry = settings.outcome element entry := by
  rw [outcome, Element.get?_withoutSpans, outcome]
  cases element.get? entry.name with
  | none => rfl
  | some attr => exact settings.answer_withoutSpans entry attr.value

theorem convertEntries_withoutSpans (settings : Settings) (entries : List Entry) (element : Element) :
    settings.convertEntries entries element.withoutSpans =
      (settings.convertEntries entries element).withoutSpans := by
  induction entries generalizing element with
  | nil => rfl
  | cons entry entries ih =>
    have same := settings.outcome_withoutSpans element entry
    cases answered : (settings.outcome element entry).2 with
    | some refusal =>
      rw [convertEntries_refused answered, convertEntries_refused (same ▸ answered), same]
      rfl
    | none =>
      rw [convertEntries_accepted answered, convertEntries_accepted (same ▸ answered), same,
        Element.remove_withoutSpans, ih, Conversion.withoutSpans_after]

theorem collect_withoutSpans (settings : Settings) (element : Element) :
    settings.collect element.withoutSpans = (settings.collect element).withoutSpans := by
  rw [collect_eq, convertEntries_withoutSpans, Element.existingClass_withoutSpans, collect_eq,
    Conversion.withoutSpans_after]

theorem convert_withoutSpans (settings : Settings) (element : Element) :
    settings.convert element.withoutSpans =
      ((settings.convert element).1.withoutSpans,
        (settings.convert element).2.map LayoutError.withoutPosition) := by
  simp only [convert, collect_withoutSpans, Conversion.result_withoutSpans, Option.map_map]
  rfl

/-- The conversion of layout attributes is blind for spans. -/
theorem isBlind_conversionRule (settings : Settings) :
    settings.conversionRule.IsBlind LayoutError.withoutPosition := by
  intro first second same
  cases first with
  | program span =>
    cases second with
    | program _ => exact ⟨rfl, rfl⟩
    | element _ => cases same
    | block _ => cases same
  | block block =>
    cases second with
    | program _ => cases same
    | element _ => cases same
    | block _ => exact ⟨same, rfl⟩
  | element element =>
    cases second with
    | program _ => cases same
    | block _ => cases same
    | element other =>
      have alike : element.withoutSpans = other.withoutSpans := Head.element.inj same
      have tag : element.tag = other.tag := (Element.mk.inj alike).1
      simp only [conversionRule, tag]
      split
      · have converted := settings.convert_withoutSpans element
        rw [alike, settings.convert_withoutSpans other] at converted
        obtain ⟨result, failure⟩ := Prod.mk.inj converted
        exact ⟨congrArg Head.element result.symm, failure.symm⟩
      · exact ⟨same, rfl⟩

end Settings

/-- Passes by blind rules, failing or not, have the same outcome on templates equal up to spans. -/
theorem Pass.runAll_of_blind {passes : List Pass} {first second : Template}
    (blind : ∀ pass ∈ passes, pass.rule.IsBlind LayoutError.withoutPosition)
    (same : first.withoutSpans = second.withoutSpans) :
    (runAll passes first).1.withoutSpans = (runAll passes second).1.withoutSpans ∧
      (runAll passes first).2.map LayoutError.withoutPosition =
        (runAll passes second).2.map LayoutError.withoutPosition := by
  induction passes generalizing first second with
  | nil => exact ⟨same, rfl⟩
  | cons pass passes ih =>
    obtain ⟨left, failure⟩ := Template.transform_of_blind (blind pass List.mem_cons_self) same
    have others := fun other member => blind other (List.mem_cons_of_mem pass member)
    rcases one : pass.run first with ⟨after, _ | error⟩ <;>
      rcases two : pass.run second with ⟨other, _ | complaint⟩ <;>
      rw [show first.transform pass.rule = _ from one, show second.transform pass.rule = _ from two]
        at left failure <;>
      simp only [runAll, one, two]
    · exact ih others left
    · cases failure
    · cases failure
    · exact ⟨left, failure⟩

/-- Passes, failing or not, leave a tree. -/
theorem Pass.isTree_runAll {passes : List Pass} {template : Template} (tree : template.IsTree) :
    (runAll passes template).1.IsTree := by
  induction passes generalizing template with
  | nil => exact tree
  | cons pass passes ih =>
    have left : (pass.run template).1.IsTree := Template.isTree_transform tree pass.rule
    rcases run : pass.run template with ⟨after, _ | error⟩ <;>
      rw [run] at left <;> simp only [runAll, run]
    · exact ih left
    · exact left

namespace Settings

variable (settings : Settings) {first second : Template}

theorem build_of_withoutSpans_eq (same : first.withoutSpans = second.withoutSpans) :
    (settings.build first).1.withoutSpans = (settings.build second).1.withoutSpans ∧
      (settings.build first).2.map LayoutError.withoutPosition =
        (settings.build second).2.map LayoutError.withoutPosition := by
  apply Pass.runAll_of_blind _ same
  intro pass member
  simp only [passes, List.mem_cons, List.not_mem_nil, or_false] at member
  rcases member with rfl | rfl
  · exact settings.isBlind_conversionRule
  · exact isBlind_componentRule

/-- What comes out of a source is told by the template in it without its spans. -/
theorem compileSource_of_withoutSpans_eq {one other : String} (here : Template.read one = .ok first)
    (there : Template.read other = .ok second) (same : first.withoutSpans = second.withoutSpans) :
    (Command.compileSource settings one).toOption = (Command.compileSource settings other).toOption := by
  obtain ⟨left, failure⟩ := build_of_withoutSpans_eq settings same
  have printed : (settings.build first).1.print = (settings.build second).1.print := by
    rw [← Template.print_withoutSpans, left, Template.print_withoutSpans]
  simp only [Command.compileSource, here, there]
  rcases built : settings.build first with ⟨after, _ | error⟩ <;>
    rcases again : settings.build second with ⟨peer, _ | complaint⟩ <;>
    rw [built, again] at failure printed
  · simp only [printed]
  · cases failure
  · cases failure
  · rfl

/-- A build of two templates that are trees and equal up to spans succeeds for both or for neither. It
leaves them equal up to spans and printed as the same text, and its errors are equal up to the place.
Sources of such templates are compiled to the same text, if to any. -/
theorem build_blind_to_spans (tree : first.IsTree) (same : first.withoutSpans = second.withoutSpans) :
    ((settings.build first).2 = none ↔ (settings.build second).2 = none) ∧
    (settings.build first).1.withoutSpans = (settings.build second).1.withoutSpans ∧
    (∃ text, (settings.build first).1.print = some text ∧
      (settings.build second).1.print = some text) ∧
    (settings.build first).2.map LayoutError.withoutPosition =
      (settings.build second).2.map LayoutError.withoutPosition ∧
    ∀ one other, Template.read one = .ok first → Template.read other = .ok second →
      (Command.compileSource settings one).toOption =
        (Command.compileSource settings other).toOption := by
  obtain ⟨left, failure⟩ := build_of_withoutSpans_eq settings same
  refine ⟨?_, left, ?_, failure, fun one other here there =>
    compileSource_of_withoutSpans_eq settings here there same⟩
  · rw [← Option.map_eq_none_iff (f := LayoutError.withoutPosition), failure, Option.map_eq_none_iff]
  · obtain ⟨text, printed⟩ := Template.exists_print_of_isTree (Pass.isTree_runAll tree)
    refine ⟨text, printed, ?_⟩
    rw [← Template.print_withoutSpans, ← left, Template.print_withoutSpans]
    exact printed

/-- Whether a source holds nothing but an element with one attribute that is there without a value. -/
private def isLoneFill : List Tree → Bool
  | [.branch (.element ⟨tag, [⟨name, .text literal, _⟩], false, _⟩) []] =>
    tag = "fill" && name = "fit" && literal.chars = ""
  | _ => false

private theorem withoutSpans_of_isLoneFill {trees : List Tree} (checked : isLoneFill trees = true) :
    Tree.withoutSpansAll trees =
      [.branch (.element ⟨"fill", [⟨"fit", .text (.made ""), .nowhere⟩], false, .nowhere⟩) []] := by
  unfold isLoneFill at checked
  split at checked
  · simp only [Bool.and_eq_true, decide_eq_true_eq] at checked
    obtain ⟨⟨rfl, rfl⟩, chars⟩ := checked
    simp [Tree.withoutSpansAll, Tree.withoutSpans, Head.withoutSpans, Element.withoutSpans,
      Attribute.withoutSpans, AttributeValue.withoutSpans, chars]
  · cases checked

/-- An element on one line and the same element on three. -/
theorem build_blind_to_line_breaks :
    let settings := ofProject .empty
    ∃ first second,
      Template.read "<fill fit></fill>" = .ok first ∧
      Template.read "<fill\n  fit\n></fill>" = .ok second ∧
      first.withoutSpans = second.withoutSpans ∧
      (first.get? 1).map Node.span ≠ (second.get? 1).map Node.span ∧
      (settings.build first).1.withoutSpans = (settings.build second).1.withoutSpans ∧
      (Command.compileSource settings "<fill fit></fill>").toOption =
        (Command.compileSource settings "<fill\n  fit\n></fill>").toOption := by
  intro settings
  have shapes : (Tree.read "<fill fit></fill>").toOption.any (isLoneFill ·.1) = true ∧
      (Tree.read "<fill\n  fit\n></fill>").toOption.any (isLoneFill ·.1) = true := by
    decide +kernel
  have spans : (Template.read "<fill fit></fill>").toOption.any (fun template =>
        (template.get? 1).map Node.span = some ⟨⟨1, 0⟩, ⟨1, 17⟩⟩) = true ∧
      (Template.read "<fill\n  fit\n></fill>").toOption.any (fun template =>
        (template.get? 1).map Node.span = some ⟨⟨1, 0⟩, ⟨3, 8⟩⟩) = true := by
    decide +kernel
  obtain ⟨first, here, one⟩ := Template.exists_of_any spans.1
  obtain ⟨second, there, other⟩ := Template.exists_of_any spans.2
  have same : first.withoutSpans = second.withoutSpans := by
    obtain ⟨trees, cursor, finished, rfl⟩ := Template.exists_trees_of_read here
    obtain ⟨others, behind, ended, rfl⟩ := Template.exists_trees_of_read there
    rw [finished, ended] at shapes
    rw [Template.withoutSpans_ofTrees, Template.withoutSpans_ofTrees,
      withoutSpans_of_isLoneFill shapes.1, withoutSpans_of_isLoneFill shapes.2]
  obtain ⟨-, built, -, -, compiled⟩ :=
    build_blind_to_spans settings (Template.isTree_of_read here) same
  refine ⟨first, second, here, there, same, ?_, built, compiled _ _ here there⟩
  rw [of_decide_eq_true one, of_decide_eq_true other]
  decide

end Settings

end LayoutMarkup
