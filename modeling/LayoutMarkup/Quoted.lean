import LayoutMarkup.Unicode.Class

/-! Quoted texts: the form in which string arguments are printed and in which messages show what
they are about. Some characters have an escape of two characters; others that do not show by
themselves are written as their code. -/

namespace LayoutMarkup.Quoted

/-- The code of a character in lower-case hexadecimal digits between `\u{` and `}`. -/
def codeEscape (c : Char) : List Char := ['\\', 'u', '{'] ++ Nat.toDigits 16 c.toNat ++ ['}']

/-- A character as it stands between two quotes of the given kind. -/
def escape (quote c : Char) : List Char :=
  if c = '\x00' then ['\\', '0']
  else if c = '\t' then ['\\', 't']
  else if c = '\r' then ['\\', 'r']
  else if c = '\n' then ['\\', 'n']
  else if c = '\\' || c = quote then ['\\', c]
  else if Unicode.isExtending c || !Unicode.isVisible c then codeEscape c
  else [c]

/-- A text between double quotes. -/
def text (chars : List Char) : List Char := '"' :: (chars.flatMap (escape '"') ++ ['"'])

/-- A character between single quotes. -/
def char (c : Char) : List Char := '\'' :: (escape '\'' c ++ ['\''])

end LayoutMarkup.Quoted
