import LayoutMarkup.Digits
import LayoutMarkup.Layout.Refusal
import LayoutMarkup.Layout.Settings
import LayoutMarkup.Unicode.Class

/-! Breakpoint tokens. The value of a breakpoint attribute is a list of words, each of which stands
for one class: a number of columns, a responder with or without a value, or an offset. -/

namespace LayoutMarkup

/-- Where a class comes from. -/
inductive Origin where
  | existing
  | term
  | column
  | responder
  | offset
deriving DecidableEq

structure ClassEntry where
  origin : Origin
  name : String
deriving DecidableEq

/-- The words of a text, which blanks separate. -/
def blankWords : List Char → List (List Char)
  | [] => []
  | c :: rest =>
    if Unicode.isBlank c then blankWords rest
    else
      match rest with
      | [] => [[c]]
      | next :: _ =>
        if Unicode.isBlank next then [c] :: blankWords rest
        else
          match blankWords rest with
          | [] => [[c]]
          | word :: words => (c :: word) :: words

/-- The integer that a word spells with digits behind at most one sign, held within a signed word. -/
def integer? (word : List Char) : Option Int :=
  let digits := if word.head? = some '-' || word.head? = some '+' then word.tail else word
  if digits.isEmpty || !digits.all Char.isDigit then none
  else
    let size : Int := digitsValue digits
    some (clampToWord (if word.head? = some '-' then -size else size))

/-- What an offset token begins with. -/
def offsetLead : List Char := ['o', 'f', 'f', 's', 'e', 't', '-']

namespace Settings

/-- The class for a number of columns. -/
def columnClass (settings : Settings) (breakpoint : Breakpoint) (value : Int) :
    Except Refusal ClassEntry :=
  match (toCount? value).filter fun count => 1 ≤ count && count ≤ settings.columns with
  | some count =>
    .ok ⟨.column, settings.classNames.column breakpoint count settings.columnPrefix settings.columns⟩
  | none => .error (.columns value breakpoint.short settings.columns)

/-- The class for an offset. -/
def offsetClass (settings : Settings) (breakpoint : Breakpoint) (value : Int) :
    Except Refusal ClassEntry :=
  match (toCount? value).filter fun count => count < settings.columns with
  | some count =>
    .ok ⟨.offset, settings.classNames.offset breakpoint count settings.columnPrefix settings.columns⟩
  | none => .error (.offset value breakpoint.short settings.columns)

/-- The class for a responder with a value. -/
def valueClass (settings : Settings) (breakpoint : Breakpoint) (token name value : String) :
    Except Refusal ClassEntry :=
  match settings.complexResponder? name with
  | none => .error (.token token breakpoint.short)
  | some responder =>
    if responder.allows value then
      .ok ⟨.responder, settings.classNames.responder breakpoint name (some value)⟩
    else .error (.attributeValue (breakpoint.short ++ ":" ++ name) value)

/-- The class that a token stands for. A number is never taken for anything else, and neither is a
word with an equals sign. -/
def tokenClass (settings : Settings) (breakpoint : Breakpoint) (token : List Char) :
    Except Refusal ClassEntry :=
  match integer? token with
  | some value => settings.columnClass breakpoint value
  | none =>
    let word := String.ofList token
    if '=' ∈ token then
      let name := token.takeWhile (· ≠ '=')
      settings.valueClass breakpoint word (String.ofList name)
        (String.ofList (token.drop (name.length + 1)))
    else if (settings.simpleResponder? word).isSome then
      .ok ⟨.responder, settings.classNames.responder breakpoint word none⟩
    else if offsetLead.isPrefixOf token then
      match integer? (token.drop offsetLead.length) with
      | some value => settings.offsetClass breakpoint value
      | none => .error (.token word breakpoint.short)
    else .error (.token word breakpoint.short)

/-- The classes that tokens stand for, up to the first that is refused. -/
def tokenClasses (settings : Settings) (breakpoint : Breakpoint) :
    List (List Char) → List ClassEntry × Option Refusal
  | [] => ([], none)
  | token :: tokens =>
    match settings.tokenClass breakpoint token with
    | .error refusal => ([], some refusal)
    | .ok entry =>
      let rest := tokenClasses settings breakpoint tokens
      (entry :: rest.1, rest.2)

end Settings

end LayoutMarkup
