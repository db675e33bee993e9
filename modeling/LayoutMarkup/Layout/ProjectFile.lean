import LayoutMarkup.Binary64.Rounding
import LayoutMarkup.Json.Read
import LayoutMarkup.Layout.Settings

/-! Project files. A project is a JSON object, or the list of its fields in their order. Members that
mean nothing are skipped whatever they hold; members that mean something stand there once. -/

namespace LayoutMarkup.ProjectFile

open Json (Value Numeral)

/-- The depth from which on what is within a layout term is too deep, the project itself at one. -/
def depthLimit : Nat := 128

/-- The values of a term lie within the project, one of its lists and the term. -/
def termDepth : Nat := 2

def string? : Value → Option String
  | .string value => value
  | _ => none

def boolean? : Value → Option Bool
  | .boolean value => some value
  | _ => none

/-- A plain natural number that is not too large. -/
def count? : Value → Option Nat
  | .number ⟨false, whole, none, none⟩ =>
    let value := digitsValue whole
    if value ≤ largestCount then some value else none
  | _ => none

/-- Read a value that may be left open. -/
def optional {α : Type} (read : Value → Option α) : Value → Option (Option α)
  | .null => some none
  | value => (read value).map some

def list? {α : Type} (read : Value → Option α) : Value → Option (List α)
  | .array items => items.mapM read
  | _ => none

/-- Read on from a value as long as it fits an unsigned word of 64 bits; the second number says how
many digits are left. -/
def wordDigits (value : Nat) : List Char → Nat × Nat
  | [] => (value, 0)
  | digit :: digits =>
    let next := 10 * value + (digit.toNat - '0'.toNat)
    if next < Nat.pow 2 64 then wordDigits next digits else (value, digits.length + 1)

/-- The leading digits of a number, and the power of ten that they are scaled by. Digits behind the
point that do not fit are dropped. -/
def scaledDigits (numeral : Numeral) : Nat × Int :=
  let decimals := numeral.decimals.getD []
  let (whole, wholeLeft) := wordDigits 0 numeral.whole
  let (value, decimalsLeft) := wordDigits whole decimals
  let shift : Int := wholeLeft - (decimals.length - decimalsLeft : Nat)
  match numeral.exponent with
  | some (true, digits) => (value, shift - digitsValue digits)
  | some (false, digits) => (value, shift + digitsValue digits)
  | none => (value, shift)

/-- The largest power of ten that is below `2 ^ 1024`. -/
def largestPower : Nat := 308

/-- Whether a number stays finite when its leading digits and the power of ten are rounded to 53
significant bits and multiplied. -/
def isInRange (numeral : Numeral) : Bool :=
  let (value, power) := scaledDigits numeral
  if value = 0 || power < 0 then true
  else if largestPower < power then false
  else
    let scale := Binary64.nearestNatural (Nat.pow 10 power.toNat)
    Binary64.nearestNatural (Binary64.nearestNatural value * scale) < Nat.pow 2 1024

mutual

/-- Whether a value within a layout term can be kept: strings and numbers have to be proper and the
nesting not too deep. -/
def isKept (depth : Nat) : Value → Bool
  | .null | .boolean _ => true
  | .number numeral => isInRange numeral
  | .string value => value.isSome
  | .array items => depth + 1 < depthLimit && areKept (depth + 1) items
  | .object members => depth + 1 < depthLimit && areKeptMembers (depth + 1) members

def areKept (depth : Nat) : List Value → Bool
  | [] => true
  | item :: items => isKept depth item && areKept depth items

def areKeptMembers (depth : Nat) : List (Option String × Value) → Bool
  | [] => true
  | (key, value) :: members => key.isSome && isKept depth value && areKeptMembers depth members

end

/-- The values of all members with a key. -/
def valuesOf (members : List (Option String × Value)) (key : String) : List Value :=
  (members.filter fun member => member.1 = some key).map Prod.snd

/-- The value of a member that need not be there, but not twice. -/
def member? (members : List (Option String × Value)) (key : String) : Option (Option Value) :=
  match valuesOf members key with
  | [] => some none
  | [value] => some (some value)
  | _ => none

/-- Read a layout term: a name, or an object with a name and values. -/
def term? (value : Value) : Option Term :=
  if !isKept termDepth value then none
  else
    match value with
    | .string name => name.map .simple
    | .object members => do
      let name ← (← member? members "name") >>= string?
      let values ← (← member? members "values") >>= list? string?
      return .complex name values
    | _ => none

/-- The values of the fields of a record, none for a field that is left out: either the members with
these keys, or the items of a list. -/
def fields? (keys : List String) : Value → Option (List (Option Value))
  | .object members =>
    if members.all fun member => member.1.isSome then keys.mapM (member? members) else none
  | .array items =>
    if items.length ≤ keys.length then
      some (items.map some ++ List.replicate (keys.length - items.length) none)
    else none
  | _ => none

/-- Read a field that has a value of its own when it is left out. -/
def field {α : Type} (read : Value → Option α) (absent : α) : Option Value → Option α
  | some value => read value
  | none => some absent

def breakpoint? (value : Value) : Option Breakpoint := do
  let [some short, name, start] ← fields? ["prefix", "name", "begin"] value | none
  return {
    short := ← string? short
    name := ← field (optional string?) none name
    start := ← field (optional count?) none start }

def project? (value : Value) : Option Project := do
  let keys := ["elements", "responders", "attributes", "breakpoints", "columns", "columnPrefix",
    "transformAllElementLayoutAttributes"]
  let [elements, responders, attributes, breakpoints, columns, columnPrefix, transformAll] ←
    fields? keys value | none
  return {
    elements := ← field (list? string?) [] elements
    responders := ← field (list? term?) [] responders
    attributes := ← field (list? term?) [] attributes
    breakpoints := ← field (optional (list? breakpoint?)) none breakpoints
    columns := ← field (optional count?) none columns
    columnPrefix := ← field (optional string?) none columnPrefix
    transformAll := ← field (optional boolean?) none transformAll
    classNames := none }

/-- Read a project from the text of its file. -/
def read (source : String) : Option Project := Json.read source >>= project?

end LayoutMarkup.ProjectFile
