import LayoutMarkup.Layout.Component
import LayoutMarkup.Layout.Conversion

/-! Builds. A build runs its passes one after the other: first every layout attribute is converted,
then components are made of what came out. -/

namespace LayoutMarkup

/-- A named transformation of templates. -/
structure Pass where
  name : String
  rule : Head.Rule LayoutError
  /-- What there is to note about a head before the rule is applied to it. -/
  notes : Head → List Note

namespace Pass

def run (pass : Pass) (template : Template) : Template × Option LayoutError :=
  template.transform pass.rule

def runNotes (pass : Pass) (template : Template) : List Note :=
  template.transformNotes pass.rule pass.notes

/-- Run passes one after the other, up to the first failure. -/
def runAll : List Pass → Template → Template × Option LayoutError
  | [], template => (template, none)
  | pass :: passes, template =>
    match pass.run template with
    | (template, some error) => (template, some error)
    | (template, none) => runAll passes template

/-- What there is to note about passes in a row, each of which is announced. -/
def runAllNotes : List Pass → Template → List Note
  | [], _ => []
  | pass :: passes, template =>
    let here := ⟨.debug, "running " ++ pass.name⟩ :: pass.runNotes template
    match pass.run template with
    | (_, some _) => here
    | (template, none) => here ++ runAllNotes passes template

/-- Make components of containers and responsive grids. -/
def component : Pass := ⟨"flexi-component-conversion", componentRule, componentNotes⟩

end Pass

namespace Settings

/-- Convert layout attributes into classes. -/
def conversion (settings : Settings) : Pass :=
  ⟨"flexi-attribute-conversion", settings.conversionRule, settings.conversionNotes⟩

/-- The passes of a build in their order. -/
def passes (settings : Settings) : List Pass := [settings.conversion, .component]

def build (settings : Settings) (template : Template) : Template × Option LayoutError :=
  Pass.runAll settings.passes template

def buildNotes (settings : Settings) (template : Template) : List Note :=
  Pass.runAllNotes settings.passes template

end Settings

end LayoutMarkup
