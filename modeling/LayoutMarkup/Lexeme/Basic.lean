import LayoutMarkup.Binary64.Text
import LayoutMarkup.Quoted
import LayoutMarkup.Source.Position

/-! The lexemes between the braces of a mustache. -/

namespace LayoutMarkup

inductive Lexeme where
  /-- A name such as `item.title`. -/
  | path (word : String)
  | string (value : String)
  | number (value : Binary64)
  | boolean (value : Bool)
  /-- The name of a named argument, with its `=`. -/
  | key (name : String)
  | openParen
  | closeParen
  /-- The two braces that end a mustache. -/
  | close
deriving DecidableEq

/-- A lexeme and where it was read. -/
structure Placed where
  lexeme : Lexeme
  span : Span

/-- How messages name a lexeme. -/
def Lexeme.describe : Lexeme → String
  | .path word => "Path(" ++ String.ofList (Quoted.text word.toList) ++ ")"
  | .string value => "Str(" ++ String.ofList (Quoted.text value.toList) ++ ")"
  | .number value => "Number(" ++ String.ofList value.messageText ++ ")"
  | .boolean value => "Bool(" ++ (if value then "true" else "false") ++ ")"
  | .key name => "Key(" ++ String.ofList (Quoted.text name.toList) ++ ")"
  | .openParen => "LParen"
  | .closeParen => "RParen"
  | .close => "Close"

end LayoutMarkup
