import LayoutMarkup.Layout.Token
import LayoutMarkup.Template.Print
import LayoutMarkup.Template.Transform

/-! The conversion of layout attributes into classes. Terms come in the order of the settings and
then breakpoints, each with its tokens in the order of the source; the classes follow the literal
class that an element has already. What has been converted is removed from the element. -/

namespace LayoutMarkup

/-- What a conversion leaves: the element without what was converted, the classes that this gave, and
why the conversion ended early. -/
structure Conversion where
  element : Element
  entries : List ClassEntry
  refusal : Option Refusal

namespace Conversion

/-- A conversion with earlier classes in front of its own. -/
def after (entries : List ClassEntry) (conversion : Conversion) : Conversion :=
  { conversion with entries := entries ++ conversion.entries }

/-- Go on with another conversion unless this one was refused. -/
def andThen (first : Conversion) (next : Element → Conversion) : Conversion :=
  match first.refusal with
  | some _ => first
  | none => (next first.element).after first.entries

end Conversion

/-- A value as messages show it. -/
def AttributeValue.describe (value : AttributeValue) : String :=
  value.chars?.getD (String.ofList value.write)

/-- What the value of an attribute sets a term to; none if the term does not take it. -/
def Term.setting? (term : Term) (value : AttributeValue) : Option (Option String) :=
  match term, value.chars? with
  | .simple _, some "" => some none
  | .complex .., some chars => if term.allows chars then some (some chars) else none
  | _, _ => none

namespace Element

/-- The literal class that an element has already. -/
def existingClass (element : Element) : List ClassEntry :=
  match element.get? "class" >>= fun attr => attr.value.chars? with
  | some chars => if chars = "" then [] else [⟨.existing, chars⟩]
  | none => []

/-- Replace a literal class; add to one with mustaches. -/
def setClass (element : Element) (classes : String) : Element :=
  if element.has "class" then
    element.modify "class" fun attr =>
      match attr.value with
      | .text literal => { attr with value := .text { literal with chars := classes } }
      | .concat parts span =>
        { attr with value := .concat (parts ++ [.text (.made (" " ++ classes))]) span }
      | .mustache call =>
        { attr with value := .concat [.mustache call, .text (.made (" " ++ classes))] call.span }
  else element.push (.made "class" classes)

end Element

namespace Settings

/-- Convert the attributes that set terms. -/
def convertTerms (settings : Settings) : List Term → Element → Conversion
  | [], element => ⟨element, [], none⟩
  | term :: terms, element =>
    match element.get? term.name with
    | none => convertTerms settings terms element
    | some attr =>
      match term.setting? attr.value with
      | none => ⟨element, [], some (.attributeValue term.name attr.value.describe)⟩
      | some value =>
        (convertTerms settings terms (element.remove term.name)).after
          [⟨.term, settings.classNames.term term.name value⟩]

/-- Convert the attributes that are breakpoints. -/
def convertBreakpoints (settings : Settings) : List Breakpoint → Element → Conversion
  | [], element => ⟨element, [], none⟩
  | breakpoint :: breakpoints, element =>
    match element.get? breakpoint.short with
    | none => convertBreakpoints settings breakpoints element
    | some attr =>
      match attr.value.chars? with
      | none => ⟨element, [], some (.token attr.value.describe breakpoint.short)⟩
      | some chars =>
        match settings.tokenClasses breakpoint (blankWords chars.toList) with
        | (entries, some refusal) => ⟨element, entries, some refusal⟩
        | (entries, none) =>
          (convertBreakpoints settings breakpoints (element.remove breakpoint.short)).after entries

/-- Take the layout attributes off an element, without writing the classes yet. -/
def collect (settings : Settings) (element : Element) : Conversion :=
  ((settings.convertTerms settings.attributes element).after element.existingClass).andThen
    (settings.convertBreakpoints settings.breakpoints)

end Settings

namespace Conversion

def classes (conversion : Conversion) : String :=
  " ".intercalate (conversion.entries.map ClassEntry.name)

/-- The element in the end. Without classes nothing is written, and a refused conversion stops before
it writes any. -/
def result (conversion : Conversion) : Element :=
  if conversion.refusal.isSome || conversion.entries.isEmpty then conversion.element
  else conversion.element.setClass conversion.classes

def entryNote (entry : ClassEntry) : Note :=
  let what :=
    match entry.origin with
    | .existing => "starting with original class string: "
    | .term => "generated class: "
    | .column => "generated column class: "
    | .responder => "generated responsive class: "
    | .offset => "generated offset class: "
  ⟨.trace, what ++ entry.name⟩

def notes (conversion : Conversion) (tag : String) : List Note :=
  let final :=
    if conversion.refusal.isSome || conversion.entries.isEmpty then []
    else [⟨.debug, "final class for <" ++ tag ++ ">: " ++ conversion.classes⟩]
  ⟨.debug, "converting attributes for <" ++ tag ++ ">"⟩ :: conversion.entries.map entryNote ++ final

end Conversion

namespace Settings

/-- Convert the layout attributes of an element. -/
def convert (settings : Settings) (element : Element) : Element × Option LayoutError :=
  let conversion := settings.collect element
  (conversion.result,
    conversion.refusal.map fun refusal => ⟨refusal, element.tag, element.span.start⟩)

/-- The conversion as a rule for the heads of a template. -/
def conversionRule (settings : Settings) : Head.Rule LayoutError
  | .element element =>
    if settings.converts element.tag then
      let converted := settings.convert element
      (.element converted.1, converted.2)
    else (.element element, none)
  | head => (head, none)

def conversionNotes (settings : Settings) : Head → List Note
  | .element element =>
    if settings.converts element.tag then (settings.collect element).notes element.tag else []
  | _ => []

end Settings

end LayoutMarkup
