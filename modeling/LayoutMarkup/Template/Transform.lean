import LayoutMarkup.Template.Basic

/-! Transformations of templates by a rule for heads. The rule is applied to every branch in document
order, and a failure ends the transformation. Children are never touched, so that the nodes to visit
are known beforehand. -/

namespace LayoutMarkup

/-- What becomes of a head. A rule that fails may leave the head changed. -/
abbrev Head.Rule (ε : Type) := Head → Head × Option ε

namespace Template

variable {ε : Type}

/-- Apply a rule to one node, if it is a branch. -/
def applyAt (rule : Head.Rule ε) (template : Template) (id : NodeId) : Template × Option ε :=
  match template.get? id with
  | some (.branch head children) =>
    let result := rule head
    (template.set id (.branch result.1 children), result.2)
  | _ => (template, none)

/-- Apply a rule to one node after the other, up to the first failure. -/
def applyEach (rule : Head.Rule ε) : List NodeId → Template → Template × Option ε
  | [], template => (template, none)
  | id :: ids, template =>
    match template.applyAt rule id with
    | (template, some failure) => (template, some failure)
    | (template, none) => applyEach rule ids template

/-- Apply a rule to all branches that can be reached. -/
def transform (rule : Head.Rule ε) (template : Template) : Template × Option ε :=
  applyEach rule template.descendants template

/-- What there is to note about each head that a rule is applied to. -/
def notesEach (rule : Head.Rule ε) (notes : Head → List Note) :
    List NodeId → Template → List Note
  | [], _ => []
  | id :: ids, template =>
    let here :=
      match template.get? id with
      | some (.branch head _) => notes head
      | _ => []
    match template.applyAt rule id with
    | (_, some _) => here
    | (template, none) => here ++ notesEach rule notes ids template

/-- What there is to note about a transformation. -/
def transformNotes (rule : Head.Rule ε) (notes : Head → List Note) (template : Template) :
    List Note := notesEach rule notes template.descendants template

end Template

end LayoutMarkup
