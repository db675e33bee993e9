import LayoutMarkup.Note
import LayoutMarkup.Template.Node

/-! Templates: a store of nodes, the first of which is the root. Whoever holds the id of a node sees
it as it is now; nodes that no other node lists stay in the store. -/

namespace LayoutMarkup

structure Template where
  nodes : Array Node
  root_lt : 0 < nodes.size

namespace Template

def root : NodeId := 0

/-- A template without content. -/
def empty (span : Span) : Template := ⟨#[.branch (.program span) []], by simp⟩

def size (template : Template) : Nat := template.nodes.size

def get? (template : Template) (id : NodeId) : Option Node := template.nodes[id]?

/-- Add a node; its id is the former size. -/
def alloc (template : Template) (node : Node) : Template :=
  ⟨template.nodes.push node, by simp⟩

/-- Put a node in the place of another; nothing happens at an id that does not exist. -/
def set (template : Template) (id : NodeId) (node : Node) : Template :=
  ⟨template.nodes.setIfInBounds id node, by simpa using template.root_lt⟩

/-- Change the node at an id, if there is one. -/
def modify (template : Template) (id : NodeId) (change : Node → Node) : Template :=
  match template.get? id with
  | some node => template.set id (change node)
  | none => template

/-- The children of a node; an id that does not exist has none. -/
def children (template : Template) (id : NodeId) : List NodeId :=
  match template.get? id with
  | some node => node.children
  | none => []

def element? (template : Template) (id : NodeId) : Option Element :=
  template.get? id >>= Node.element?

/-- Change an element, if the id is one of an element. -/
def modifyElement (template : Template) (id : NodeId) (change : Element → Element) : Template :=
  template.modify id <| Node.mapHead fun
    | .element el => .element (change el)
    | head => head

/-- Add a child at the end; a leaf stays as it is. -/
def append (template : Template) (parent child : NodeId) : Template :=
  template.modify parent (Node.mapChildren (· ++ [child]))

/-- A leaf that should get a child is worth a warning. -/
def appendNotes (template : Template) (parent : NodeId) : List Note :=
  match template.get? parent with
  | some (.leaf _) =>
    [⟨.warn, "cannot append child to leaf node NodeId(" ++ toString parent ++ ")"⟩]
  | _ => []

def isEmpty (template : Template) : Bool := (template.children root).isEmpty

/-- A node and all below it, each before its children and these in order, down to some depth. -/
def preorder (template : Template) : Nat → NodeId → List NodeId
  | 0, _ => []
  | depth + 1, id => id :: (template.children id).flatMap (template.preorder depth)

/-- Every node that can be reached from the root, in document order. Without a cycle no path is
longer than the store and one id that does not exist. -/
def descendants (template : Template) : List NodeId := template.preorder (template.size + 1) root

end Template

end LayoutMarkup
