import LayoutMarkup.Call.Print
import LayoutMarkup.Template.Basic

/-! The written form of templates. Values are put between double quotes and comments into their long
form; an element that closes itself shows no children, whatever it holds. -/

namespace LayoutMarkup

namespace AttributeValue

/-- A value as it stands behind the `=`. -/
def write : AttributeValue → List Char
  | .text literal => '"' :: (escapeQuotes literal.chars.toList ++ ['"'])
  | .mustache call => call.writeMustache
  | .concat parts _ => '"' :: (parts.flatMap Part.write ++ ['"'])

/-- Whether a value says nothing and is left out. -/
def isAbsent (value : AttributeValue) : Bool := value.chars? = some ""

end AttributeValue

def Attribute.write (attr : Attribute) : List Char :=
  ' ' :: (attr.name.toList ++ if attr.value.isAbsent then [] else '=' :: attr.value.write)

def Comment.write (comment : Comment) : List Char :=
  if comment.html then ['<', '!', '-', '-'] ++ comment.value.toList ++ ['-', '-', '>']
  else ['{', '{', '!', '-', '-'] ++ comment.value.toList ++ ['-', '-', '}', '}']

def Leaf.write : Leaf → List Char
  | .text literal => literal.chars.toList
  | .mustache call => call.writeMustache
  | .comment remark => remark.write

namespace Element

def writeStart (element : Element) : List Char :=
  '<' :: (element.tag.toList ++ element.attributes.flatMap Attribute.write ++
    if element.selfClosing then [' ', '/', '>'] else ['>'])

def writeEnd (element : Element) : List Char := ['<', '/'] ++ element.tag.toList ++ ['>']

end Element

namespace Block

def writeStart (block : Block) : List Char :=
  ['{', '{', '#'] ++ block.path.name.toList ++ writeParams block.params ++ writeHash block.hash ++
    ['}', '}']

def writeEnd (block : Block) : List Char := ['{', '{', '/'] ++ block.path.name.toList ++ ['}', '}']

end Block

namespace Head

/-- Whether the children of a branch are not written. -/
def hidesChildren (head : Head) : Bool := head.element?.any Element.selfClosing

/-- A branch around its written children. Without children a void element needs no closing tag. -/
def write (head : Head) (childless : Bool) (content : List Char) : List Char :=
  match head with
  | .program _ => content
  | .block inner => inner.writeStart ++ content ++ inner.writeEnd
  | .element el =>
    if el.selfClosing || (childless && isVoidTag el.tag) then el.writeStart
    else el.writeStart ++ content ++ el.writeEnd

end Head

namespace Template

/-- A node and what is below it, down to some depth; none if an id on the way does not exist. -/
def writeNode (template : Template) : Nat → NodeId → Option (List Char)
  | 0, _ => none
  | depth + 1, id =>
    match template.get? id with
    | none => none
    | some (.leaf content) => some content.write
    | some (.branch head children) =>
      if head.hidesChildren then some (head.write children.isEmpty [])
      else
        (children.mapM (template.writeNode depth)).map fun texts =>
          head.write children.isEmpty texts.flatten

/-- The text of a template, unless it shows a node that does not exist. -/
def print (template : Template) : Option String :=
  (template.writeNode (template.size + 1) root).map String.ofList

end Template

end LayoutMarkup
