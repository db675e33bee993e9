import LayoutMarkup.Json.Value

/-! Reading JSON documents. A document is one value with blanks around it; nothing else is allowed, no
mark before it and no comma at the end of a list. -/

namespace LayoutMarkup.Json

/-- JSON's own blanks. -/
def isBlank (c : Char) : Bool := c = ' ' || c = '\n' || c = '\r' || c = '\t'

def skipBlank (text : List Char) : List Char := text.dropWhile isBlank

def hexDigit? (c : Char) : Option Nat :=
  if '0' ≤ c ∧ c ≤ '9' then some (c.toNat - '0'.toNat)
  else if 'a' ≤ c ∧ c ≤ 'f' then some (c.toNat - 'a'.toNat + 10)
  else if 'A' ≤ c ∧ c ≤ 'F' then some (c.toNat - 'A'.toNat + 10)
  else none

/-- The unit that four hexadecimal digits spell. -/
def unit? (digits : List Char) : Option Nat :=
  if digits.length = 4 then
    digits.foldl (fun value digit => do return 16 * (← value) + (← hexDigit? digit)) (some 0)
  else none

/-- What follows a backslash, apart from the escapes of units. -/
def simpleEscape? : Char → Option Char
  | '"' => some '"'
  | '\\' => some '\\'
  | '/' => some '/'
  | 'b' => some '\x08'
  | 'f' => some '\x0c'
  | 'n' => some '\n'
  | 'r' => some '\r'
  | 't' => some '\t'
  | _ => none

/-- One element of a string: a character, or the unit of an escape. -/
inductive StringItem where
  | char (c : Char)
  | unit (unit : Nat)

/-- The elements of a string up to its closing quote. -/
def readItems : Nat → List Char → Option (List StringItem × List Char)
  | 0, _ => none
  | fuel + 1, text =>
    match text with
    | [] => none
    | '"' :: rest => some ([], rest)
    | '\\' :: 'u' :: rest => do
      let unit ← unit? (rest.take 4)
      let (items, rest) ← readItems fuel (rest.drop 4)
      return (.unit unit :: items, rest)
    | '\\' :: c :: rest => do
      let c ← simpleEscape? c
      let (items, rest) ← readItems fuel rest
      return (.char c :: items, rest)
    | c :: rest =>
      if c = '\\' || c.toNat < 0x20 then none
      else do
        let (items, rest) ← readItems fuel rest
        return (.char c :: items, rest)

/-- The characters that string elements spell, two halves of a surrogate pair one character. -/
def spell : List StringItem → Option (List Char)
  | [] => some []
  | .char c :: items => (spell items).map (c :: ·)
  | .unit high :: .unit low :: items =>
    if 0xD800 ≤ high ∧ high < 0xDC00 then
      if 0xDC00 ≤ low ∧ low < 0xE000 then
        (spell items).map
          (Char.ofNat (0x10000 + 0x400 * (high - 0xD800) + (low - 0xDC00)) :: ·)
      else none
    else if 0xDC00 ≤ high ∧ high < 0xE000 then none
    else (spell (.unit low :: items)).map (Char.ofNat high :: ·)
  | .unit unit :: items =>
    if 0xD800 ≤ unit ∧ unit < 0xE000 then none else (spell items).map (Char.ofNat unit :: ·)

/-- Read a string behind its opening quote. -/
def readString (text : List Char) : Option (Option String × List Char) := do
  let (items, rest) ← readItems (text.length + 1) text
  return ((spell items).map String.ofList, rest)

/-- Read a number: no zero stands before other digits, and at least one digit in every place. -/
def readNumber (text : List Char) : Option (Numeral × List Char) := do
  let negative := text.head? = some '-'
  let text := if negative then text.tail else text
  let digits := text.takeWhile Char.isDigit
  let whole := if digits.head? = some '0' then ['0'] else digits
  guard (!whole.isEmpty && whole.length = digits.length)
  let text := text.drop whole.length
  let (decimals, text) ←
    match text with
    | '.' :: rest =>
      let digits := rest.takeWhile Char.isDigit
      if digits.isEmpty then none else some (some digits, rest.drop digits.length)
    | _ => some (none, text)
  let (exponent, text) ←
    match text with
    | c :: rest =>
      if c = 'e' || c = 'E' then
        let signed := rest.head? = some '-' || rest.head? = some '+'
        let behind := if signed then rest.tail else rest
        let digits := behind.takeWhile Char.isDigit
        if digits.isEmpty then none
        else some (some (rest.head? == some '-', digits), behind.drop digits.length)
      else some (none, text)
    | [] => some (none, text)
  return (⟨negative, whole, decimals, exponent⟩, text)

/-- Move over a word if it comes next. -/
def eatWord? (word : String) (text : List Char) : Option (List Char) :=
  if word.toList.isPrefixOf text then some (text.drop word.length) else none

mutual

/-- Read a value. Every value within another has less of the text before it, so that the length of
the text bounds the depth. -/
def readValue : Nat → List Char → Option (Value × List Char)
  | 0, _ => none
  | fuel + 1, text =>
    match skipBlank text with
    | [] => none
    | '"' :: rest => (readString rest).map fun (value, rest) => (.string value, rest)
    | '[' :: rest =>
      match skipBlank rest with
      | ']' :: rest => some (.array [], rest)
      | _ => (readArray fuel rest).map fun (items, rest) => (.array items, rest)
    | '{' :: rest =>
      match skipBlank rest with
      | '}' :: rest => some (.object [], rest)
      | _ => (readObject fuel rest).map fun (members, rest) => (.object members, rest)
    | 'n' :: rest => (eatWord? "ull" rest).map fun rest => (.null, rest)
    | 't' :: rest => (eatWord? "rue" rest).map fun rest => (.boolean true, rest)
    | 'f' :: rest => (eatWord? "alse" rest).map fun rest => (.boolean false, rest)
    | text => (readNumber text).map fun (numeral, rest) => (.number numeral, rest)

/-- Read the items of an array up to its end. -/
def readArray : Nat → List Char → Option (List Value × List Char)
  | 0, _ => none
  | fuel + 1, text => do
    let (item, rest) ← readValue fuel text
    match skipBlank rest with
    | ',' :: rest =>
      let (items, rest) ← readArray fuel rest
      return (item :: items, rest)
    | ']' :: rest => return ([item], rest)
    | _ => none

/-- Read the members of an object up to its end. -/
def readObject : Nat → List Char → Option (List (Option String × Value) × List Char)
  | 0, _ => none
  | fuel + 1, text => do
    let '"' :: rest := skipBlank text | none
    let (key, rest) ← readString rest
    let ':' :: rest := skipBlank rest | none
    let (value, rest) ← readValue fuel rest
    match skipBlank rest with
    | ',' :: rest =>
      let (members, rest) ← readObject fuel rest
      return ((key, value) :: members, rest)
    | '}' :: rest => return ([(key, value)], rest)
    | _ => none

end

/-- Read a document. -/
def read (source : String) : Option Value :=
  let text := source.toList
  match readValue (2 * text.length + 2) text with
  | some (value, rest) => if (skipBlank rest).isEmpty then some value else none
  | none => none

end LayoutMarkup.Json
