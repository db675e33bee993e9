import LayoutMarkup.Call.Basic

/-! The nodes of a template. A leaf has no children; a branch is a head over its children, which it
names by their ids, so that a head can be exchanged without touching the tree around it. -/

namespace LayoutMarkup

/-- What an attribute says. An attribute without a value says the empty text. -/
inductive AttributeValue where
  | text (text : Text)
  | mustache (call : Call)
  /-- A quoted value with at least one mustache in it. -/
  | concat (parts : List Part) (span : Span)

namespace AttributeValue

/-- The literal text of a value without mustaches. -/
def chars? : AttributeValue → Option String
  | .text literal => some literal.chars
  | _ => none

def span : AttributeValue → Span
  | .text literal => literal.span
  | .mustache call => call.span
  | .concat _ span => span

end AttributeValue

structure Attribute where
  name : String
  value : AttributeValue
  span : Span

/-- A literal attribute that was made and not read. -/
def Attribute.made (name chars : String) : Attribute := ⟨name, .text (.made chars), .nowhere⟩

/-- An element without its children. -/
structure Element where
  tag : String
  attributes : List Attribute
  selfClosing : Bool
  span : Span

namespace Element

/-- The first attribute with a name. -/
def get? (element : Element) (name : String) : Option Attribute :=
  element.attributes.find? fun attr => attr.name = name

def has (element : Element) (name : String) : Bool := (element.get? name).isSome

/-- The element without the first attribute of a name. -/
def remove (element : Element) (name : String) : Element :=
  { element with attributes := element.attributes.eraseP fun attr => attr.name = name }

/-- The element with its first attribute of a name changed. -/
def modify (element : Element) (name : String) (change : Attribute → Attribute) : Element :=
  { element with attributes := go element.attributes }
where
  go : List Attribute → List Attribute
    | [] => []
    | attr :: rest => if attr.name = name then change attr :: rest else attr :: go rest

def push (element : Element) (attr : Attribute) : Element :=
  { element with attributes := element.attributes ++ [attr] }

end Element

/-- A block without its body: the call in its opening mustache and the span of the body. -/
structure Block where
  path : Path
  params : List Expression
  hash : Option Hash
  bodySpan : Span
  span : Span

structure Comment where
  value : String
  /-- Whether it is a comment of the markup, or else of the template language. -/
  html : Bool
  span : Span
deriving DecidableEq

inductive Leaf where
  | text (text : Text)
  | mustache (call : Call)
  | comment (comment : Comment)

/-- A branch without its children. -/
inductive Head where
  | program (span : Span)
  | element (element : Element)
  | block (block : Block)

/-- The place of a node in its template. -/
abbrev NodeId := Nat

inductive Node where
  | leaf (leaf : Leaf)
  | branch (head : Head) (children : List NodeId)

def Leaf.span : Leaf → Span
  | .text literal => literal.span
  | .mustache call => call.span
  | .comment remark => remark.span

def Head.span : Head → Span
  | .program span => span
  | .element el => el.span
  | .block inner => inner.span

def Head.element? : Head → Option Element
  | .element el => some el
  | _ => none

namespace Node

def children : Node → List NodeId
  | .leaf _ => []
  | .branch _ children => children

def span : Node → Span
  | .leaf content => content.span
  | .branch head _ => head.span

def element? : Node → Option Element
  | .branch head _ => head.element?
  | .leaf _ => none

def block? : Node → Option Block
  | .branch (.block inner) _ => some inner
  | _ => none

/-- Exchange the head of a branch. -/
def mapHead (change : Head → Head) : Node → Node
  | .branch head children => .branch (change head) children
  | .leaf content => .leaf content

/-- Exchange the children of a branch. -/
def mapChildren (change : List NodeId → List NodeId) : Node → Node
  | .branch head children => .branch head (change children)
  | .leaf content => .leaf content

/-- The name of the kind of a node. -/
def kind : Node → String
  | .leaf (.text _) => "TextNode"
  | .leaf (.mustache _) => "MustacheStatement"
  | .leaf (.comment _) => "CommentStatement"
  | .branch (.program _) _ => "Program"
  | .branch (.element _) _ => "ElementNode"
  | .branch (.block _) _ => "BlockStatement"

end Node

/-- Elements that never have a closing tag. -/
def voidTags : List String :=
  ["area", "base", "br", "col", "embed", "hr", "img", "input", "link", "meta", "source", "track",
    "wbr"]

def isVoidTag (tag : String) : Bool := voidTags.contains tag

end LayoutMarkup
