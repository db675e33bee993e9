import LayoutMarkup.Template.Basic

/-! Walks over templates. A visitor is called on every node that can be reached, before the nodes
below it; it may change the template, and what it leaves decides which children are visited. -/

namespace LayoutMarkup.Template

/-- Called on a node, a visitor leaves a template and a state of its own, and may stop the walk. -/
abbrev Visitor (σ ε : Type) := NodeId → Template × σ → (Template × σ) × Option ε

/-- Visit the nodes that wait on a stack and all below them, with a bound on the number of visits;
no result means that the bound was too low. -/
def walkFrom {σ ε : Type} (visit : Visitor σ ε) :
    Nat → List NodeId → Template × σ → Option ((Template × σ) × Option ε)
  | _, [], state => some (state, none)
  | 0, _ :: _, _ => none
  | fuel + 1, id :: waiting, state =>
    match visit id state with
    | (state, some stop) => some (state, some stop)
    | (state, none) => walkFrom visit fuel (state.1.children id ++ waiting) state

/-- Walk over a template from its root. -/
def walk {σ ε : Type} (template : Template) (visit : Visitor σ ε) (own : σ) (fuel : Nat) :
    Option ((Template × σ) × Option ε) := walkFrom visit fuel [root] (template, own)

end LayoutMarkup.Template
