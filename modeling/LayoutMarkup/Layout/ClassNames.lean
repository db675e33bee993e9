import LayoutMarkup.Layout.Term

/-! Naming schemes for classes. Each of the four kinds of classes has a rule of its own, so that a
scheme can replace some and keep the others. -/

namespace LayoutMarkup

/-- How classes are named. The rules for columns and offsets get the number, the column prefix and
the number of columns in all; the other rules get a name and a value. -/
structure ClassNames where
  column : Breakpoint → Nat → Option String → Nat → String
  offset : Breakpoint → Nat → Option String → Nat → String
  responder : Breakpoint → String → Option String → String
  term : String → Option String → String

namespace ClassNames

/-- A column prefix with its hyphen, unless there is none. -/
def columnLead : Option String → String
  | some lead => if lead = "" then "" else lead ++ "-"
  | none => ""

/-- A name and its value, unless there is none. -/
def valued (name value : String) : String := name ++ "-" ++ value

/-- `col-sm-12` -/
def defaultColumn (breakpoint : Breakpoint) (count : Nat) (lead : Option String) (_total : Nat) :
    String :=
  columnLead lead ++ breakpoint.short ++ "-" ++ toString count

/-- `col-offset-md-3` -/
def defaultOffset (breakpoint : Breakpoint) (count : Nat) (lead : Option String) (_total : Nat) :
    String :=
  columnLead lead ++ "offset-" ++ breakpoint.short ++ "-" ++ toString count

/-- `visible-sm`, `align-center-sm` -/
def defaultResponder (breakpoint : Breakpoint) (name : String) (value : Option String) : String :=
  match value.filter (· ≠ "") with
  | some value => valued name value ++ "-" ++ breakpoint.short
  | none => name ++ "-" ++ breakpoint.short

/-- `flexi-vertical`, `align-center` -/
def defaultTerm (name : String) (value : Option String) : String :=
  match value.filter (· ≠ "") with
  | some value => valued name value
  | none => "flexi-" ++ name

/-- The scheme that is used unless a project brings its own. -/
def default : ClassNames := ⟨defaultColumn, defaultOffset, defaultResponder, defaultTerm⟩

end ClassNames

end LayoutMarkup
