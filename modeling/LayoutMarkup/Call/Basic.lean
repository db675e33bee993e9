import LayoutMarkup.Binary64.Basic
import LayoutMarkup.Source.Position

/-! Calls: a name with positional and named arguments, the content of a mustache and of the head of a
block. A call in parentheses is itself an argument. -/

namespace LayoutMarkup

/-- What a call names: `title`, `this.items`, `@index`. -/
structure Path where
  name : String
  span : Span
deriving DecidableEq

/-- A literal stretch of text. -/
structure Text where
  chars : String
  span : Span
deriving DecidableEq

mutual

/-- An argument. -/
inductive Expression where
  | path (path : Path)
  | string (value : String) (span : Span)
  | number (value : Binary64) (span : Span)
  | boolean (value : Bool) (span : Span)
  | call (call : Call)
  /-- The parts of an attribute value that became an argument. -/
  | concat (parts : List Part) (span : Span)

structure Call where
  path : Path
  params : List Expression
  hash : Option Hash
  span : Span

/-- The named arguments of a call. -/
structure Hash where
  pairs : List Pair
  span : Span

structure Pair where
  key : String
  value : Expression
  span : Span

/-- A part of a quoted attribute value: literal text or a mustache. -/
inductive Part where
  | text (text : Text)
  | mustache (call : Call)

end

namespace Path

/-- A path that was made and not read. -/
def made (name : String) : Path := ⟨name, .nowhere⟩

end Path

namespace Text

def made (chars : String) : Text := ⟨chars, .nowhere⟩

end Text

namespace Expression

def span : Expression → Span
  | .path name => name.span
  | .string _ span | .number _ span | .boolean _ span | .concat _ span => span
  | .call inner => inner.span

/-- The same argument as though read from elsewhere; what it holds keeps its spans. -/
def withSpan (expression : Expression) (span : Span) : Expression :=
  match expression with
  | .path name => .path { name with span }
  | .string value _ => .string value span
  | .number value _ => .number value span
  | .boolean value _ => .boolean value span
  | .call inner => .call { inner with span }
  | .concat parts _ => .concat parts span

end Expression

namespace Hash

/-- Named arguments span from the first pair to the last. -/
def ofPairs (pairs : List Pair) : Hash :=
  match pairs.head?, pairs.getLast? with
  | some first, some last => ⟨pairs, first.span.start, last.span.stop⟩
  | _, _ => ⟨pairs, .nowhere⟩

/-- The value of the first pair with a key. -/
def get? (hash : Hash) (key : String) : Option Expression :=
  (hash.pairs.find? fun pair => pair.key = key).map Pair.value

end Hash

/-- Whether a call is a name and nothing else. -/
def Call.isBare (call : Call) : Bool := call.params.isEmpty && call.hash.isNone

end LayoutMarkup
