import LayoutMarkup.Layout.Refusal
import LayoutMarkup.Template.Transform

/-! Layout components. Containers and responsive grids become blocks that call a component: the
attributes turn into named arguments, and the children into the body of the block. -/

namespace LayoutMarkup

/-- By how many columns the opening of a component is longer than that of its element. -/
def componentShift : Nat := 7

/-- Move a place to the right if it is on the given line. -/
def Position.shift (position : Position) (line : Nat) : Position :=
  if position.line = line then ⟨position.line, position.column + componentShift⟩ else position

/-- Move both ends of a span that are on the given line. -/
def Span.shift (span : Span) (line : Nat) : Span := ⟨span.start.shift line, span.stop.shift line⟩

/-- The value of an attribute as an argument. A mustache that is only a name becomes a path. -/
def AttributeValue.toExpression : AttributeValue → Expression
  | .text literal => .string literal.chars literal.span
  | .mustache call => if call.isBare then .path call.path else .call call
  | .concat parts span => .concat parts span

/-- An attribute as a named argument. -/
def Attribute.toPair (attr : Attribute) (line : Nat) : Pair :=
  let value := attr.value.toExpression
  ⟨attr.name, value.withSpan (value.span.shift line), attr.span.shift line⟩

namespace Element

/-- A container is a component, and a grid with the attribute `responsive`. -/
def isComponent (element : Element) : Bool :=
  element.tag = "container" || (element.tag = "grid" && element.has "responsive")

def componentName (element : Element) : String := "flexi-" ++ element.tag

/-- The call that an element becomes. -/
def toBlock (element : Element) : Block :=
  let pairs := element.attributes.map (Attribute.toPair · element.span.start.line)
  { path := .made element.componentName
    params := []
    hash := if pairs.isEmpty then none else some (.ofPairs pairs)
    bodySpan := .nowhere
    span := { element.span with
      stop := ⟨element.span.stop.line, element.span.stop.column + componentShift⟩ } }

end Element

/-- The making of components as a rule for the heads of a template. -/
def componentRule : Head.Rule LayoutError
  | .element element =>
    (if element.isComponent then .block element.toBlock else .element element, none)
  | head => (head, none)

def componentNotes : Head → List Note
  | .element element =>
    if element.isComponent then
      [⟨.debug, "converting <" ++ element.tag ++ "> to \x7b\x7b#" ++ element.componentName ++
        "\x7d\x7d"⟩]
    else []
  | _ => []

end LayoutMarkup
