import LayoutMarkup.Binary64.Text
import LayoutMarkup.Call.Basic
import LayoutMarkup.Quoted

/-! The written form of calls. Arguments are separated by single spaces; string arguments are quoted,
and the parts of an attribute value become the arguments of a call to `concat`. -/

namespace LayoutMarkup

/-- A double quote in an attribute value is written as a character reference. -/
def escapeQuotes (text : List Char) : List Char :=
  text.flatMap fun c => if c = '"' then ['&', 'q', 'u', 'o', 't', ';'] else [c]

def booleanText (value : Bool) : List Char :=
  if value then ['t', 'r', 'u', 'e'] else ['f', 'a', 'l', 's', 'e']

mutual

def Expression.write : Expression → List Char
  | .path name => name.name.toList
  | .string value _ => Quoted.text value.toList
  | .number value _ => value.argumentText
  | .boolean value _ => booleanText value
  | .call inner => '(' :: (inner.write ++ [')'])
  | .concat parts _ => ['(', 'c', 'o', 'n', 'c', 'a', 't'] ++ writeConcat parts ++ [')']

/-- A call without the braces or parentheses around it. -/
def Call.write : Call → List Char
  | ⟨path, params, hash, _⟩ => path.name.toList ++ writeParams params ++ writeHash hash

def writeParams : List Expression → List Char
  | [] => []
  | value :: rest => ' ' :: (value.write ++ writeParams rest)

def writeHash : Option Hash → List Char
  | none => []
  | some ⟨pairs, _⟩ => writePairs pairs

def writePairs : List Pair → List Char
  | [] => []
  | ⟨key, value, _⟩ :: rest => ' ' :: (key.toList ++ '=' :: (value.write ++ writePairs rest))

/-- The parts of a value as arguments; a mustache that is only a name needs no parentheses. -/
def writeConcat : List Part → List Char
  | [] => []
  | .text text :: rest => ' ' :: (Quoted.text text.chars.toList ++ writeConcat rest)
  | .mustache call :: rest =>
    ' ' :: ((if call.isBare then call.write else '(' :: (call.write ++ [')'])) ++ writeConcat rest)

end

def Call.writeMustache (call : Call) : List Char := '{' :: '{' :: (call.write ++ ['}', '}'])

def Part.write : Part → List Char
  | .text literal => escapeQuotes literal.chars.toList
  | .mustache call => call.writeMustache

end LayoutMarkup
