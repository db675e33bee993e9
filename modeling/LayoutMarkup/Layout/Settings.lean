import LayoutMarkup.Layout.ClassNames
import LayoutMarkup.Note

/-! Settings: what a project says, merged with what is built in. Lists are united, the built-in
entries first; breakpoints, columns and the column prefix come from the project alone. -/

namespace LayoutMarkup

/-- Both lists without repetitions, each entry where it occurs first. -/
def orderedUnion {α : Type} [DecidableEq α] (first second : List α) : List α :=
  (first ++ second).foldl (fun united item => if item ∈ united then united else united ++ [item]) []

/-- What a project sets. -/
structure Project where
  elements : List String
  responders : List Term
  attributes : List Term
  breakpoints : Option (List Breakpoint)
  columns : Option Nat
  columnPrefix : Option String
  transformAll : Option Bool
  classNames : Option ClassNames

namespace Project

/-- A project that sets nothing. -/
def empty : Project := ⟨[], [], [], none, none, none, none, none⟩

def withElement (project : Project) (tag : String) : Project :=
  { project with elements := project.elements ++ [tag] }

def withResponder (project : Project) (term : Term) : Project :=
  { project with responders := project.responders ++ [term] }

def withAttribute (project : Project) (term : Term) : Project :=
  { project with attributes := project.attributes ++ [term] }

def withBreakpoint (project : Project) (breakpoint : Breakpoint) : Project :=
  { project with breakpoints := some (project.breakpoints.getD [] ++ [breakpoint]) }

def withColumns (project : Project) (columns : Nat) : Project :=
  { project with columns := some columns }

def withColumnPrefix (project : Project) (lead : String) : Project :=
  { project with columnPrefix := some lead }

def withTransformAll (project : Project) (transformAll : Bool) : Project :=
  { project with transformAll := some transformAll }

def withClassNames (project : Project) (classNames : ClassNames) : Project :=
  { project with classNames := some classNames }

end Project

/-- What is built in. -/
structure Defaults where
  elements : List String
  responders : List Term
  attributes : List Term
  classNames : ClassNames

/-- Terms that are attributes and responders alike. -/
def layoutTerms : List Term :=
  [.simple "fill", .simple "fit", .simple "horizontal", .simple "nowrap", .simple "vertical",
    .simple "wrap", .complex "align" ["start", "end", "stretch", "center", "baseline"],
    .complex "justify" ["start", "end", "center", "between", "around"]]

/-- The layout elements. `grid` is listed twice; merging leaves it once. -/
def Defaults.standard : Defaults where
  elements :=
    ["box", "centered", "container", "fill", "grid", "grid", "hbox", "page", "screen", "vbox"]
  responders := [.simple "hidden", .simple "visible"] ++ layoutTerms
  attributes := layoutTerms
  classNames := .default

structure Settings where
  elements : List String
  attributes : List Term
  responders : List Term
  breakpoints : List Breakpoint
  columns : Nat
  columnPrefix : Option String
  transformAll : Bool
  classNames : ClassNames

namespace Settings

def merge (defaults : Defaults) (project : Project) : Settings where
  elements := orderedUnion defaults.elements project.elements
  attributes := orderedUnion defaults.attributes project.attributes
  responders := orderedUnion defaults.responders project.responders
  breakpoints := project.breakpoints.getD []
  columns := project.columns.getD 0
  columnPrefix := project.columnPrefix
  transformAll := project.transformAll.getD false
  classNames := project.classNames.getD defaults.classNames

def ofProject (project : Project) : Settings := merge .standard project

/-- What there is to note about merged settings. -/
def note (settings : Settings) : Note :=
  ⟨.debug, "flexi config: " ++ toString settings.elements.length ++ " elements, " ++
    toString settings.attributes.length ++ " attributes, " ++
    toString settings.responders.length ++ " responders, " ++
    toString settings.breakpoints.length ++ " breakpoints, " ++
    toString settings.columns ++ " columns"⟩

/-- Whether the layout attributes of elements with a tag are converted. -/
def converts (settings : Settings) (tag : String) : Bool :=
  settings.transformAll || settings.elements.contains tag

/-- The simple responder of a name. -/
def simpleResponder? (settings : Settings) (name : String) : Option Term :=
  settings.responders.find? fun
    | .simple own => own = name
    | .complex .. => false

/-- The first complex responder of a name. -/
def complexResponder? (settings : Settings) (name : String) : Option Term :=
  settings.responders.find? fun
    | .simple _ => false
    | .complex own _ => own = name

end Settings

end LayoutMarkup
