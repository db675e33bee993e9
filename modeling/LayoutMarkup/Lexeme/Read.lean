import LayoutMarkup.Binary64.Rounding
import LayoutMarkup.Fault
import LayoutMarkup.Source.Cursor

/-! Reading lexemes. What comes first in a text is told from its first one or two characters; every
lexeme takes at least one character, so that reading lexemes one after another comes to an end. -/

namespace LayoutMarkup

/-- Path characters make up names, which may hold dots, slashes and the like. -/
def isPathChar (c : Char) : Bool :=
  Unicode.isAlphanumeric c || ['_', '-', '.', '/', '@', ':', '$'].contains c

namespace Lexeme

/-- The characters between an opening quote and the quote that ends it; a backslash keeps the
character after it from ending the text. -/
def literalBody (quote : Char) : List Char → Except Cause (List Char)
  | [] => .error .unterminatedString
  | '\\' :: [] => .error .unterminatedEscape
  | '\\' :: c :: rest => (literalBody quote rest).map ('\\' :: c :: ·)
  | c :: rest => if c = quote then .ok [] else (literalBody quote rest).map (c :: ·)

/-- A backslash stands for the character after it. -/
def unescape : List Char → List Char
  | '\\' :: c :: rest => c :: unescape rest
  | c :: rest => c :: unescape rest
  | [] => []

/-- A numeral as it is written. -/
structure Numeral where
  negative : Bool
  whole : List Char
  /-- The digits behind the point, if there is a point. -/
  decimals : Option (List Char)

namespace Numeral

/-- The numeral at the front of a text. -/
def read (text : List Char) : Numeral :=
  let negative := text.head? = some '-'
  let text := if negative then text.tail else text
  let whole := text.takeWhile Char.isDigit
  match text.drop whole.length with
  | '.' :: rest => ⟨negative, whole, some (rest.takeWhile Char.isDigit)⟩
  | _ => ⟨negative, whole, none⟩

def written (numeral : Numeral) : List Char :=
  (if numeral.negative then ['-'] else []) ++ numeral.whole ++
    match numeral.decimals with
    | some decimals => '.' :: decimals
    | none => []

def value (numeral : Numeral) : Binary64 :=
  .ofNumeral numeral.negative numeral.whole (numeral.decimals.getD [])

end Numeral

/-- Whether a text begins with a numeral: a digit, or a minus sign before one. -/
def startsNumeral : List Char → Bool
  | '-' :: c :: _ => c.isDigit
  | c :: _ => c.isDigit
  | [] => false

/-- A name that is no keyword. -/
def ofWord (word : List Char) : Lexeme :=
  if word = ['t', 'r', 'u', 'e'] then .boolean true
  else if word = ['f', 'a', 'l', 's', 'e'] then .boolean false
  else .path (String.ofList word)

/-- The lexeme at the front of a text, or what is wrong there, and how many characters were read. -/
def read (text : List Char) : Except Cause Lexeme × Nat :=
  match text with
  | [] => (.error .unclosedMustache, 0)
  | c :: rest =>
    if c = '}' && rest.head? = some '}' then (.ok .close, 2)
    else if c = '(' then (.ok .openParen, 1)
    else if c = ')' then (.ok .closeParen, 1)
    else if c = '"' || c = '\'' then
      match literalBody c rest with
      | .ok body => (.ok (.string (String.ofList (unescape body))), body.length + 2)
      | .error cause => (.error cause, text.length)
    else if startsNumeral text then
      let numeral := Numeral.read text
      (.ok (.number numeral.value), numeral.written.length)
    else if isPathChar c then
      let word := text.takeWhile isPathChar
      if (text.drop word.length).head? = some '=' then
        (.ok (.key (String.ofList word)), word.length + 1)
      else (.ok (ofWord word), word.length)
    else (.error (.unexpectedCharacter c), 0)

theorem Numeral.written_length_pos {text : List Char} (starts : startsNumeral text = true) :
    0 < (Numeral.read text).written.length := by
  match text with
  | [] => simp [startsNumeral] at starts
  | c :: rest =>
    by_cases minus : c = '-'
    · subst minus
      simp only [Numeral.read]
      split <;> simp [Numeral.written]
    · have digit : c.isDigit = true := by
        unfold startsNumeral at starts
        split at starts
        · simp_all
        · simp_all
        · cases starts
      simp only [Numeral.read]
      split <;> simp [Numeral.written, minus, digit]

/-- A lexeme has at least one character. -/
theorem read_length_pos {text : List Char} {lexeme : Lexeme} {count : Nat}
    (found : read text = (.ok lexeme, count)) : 0 < count := by
  unfold read at found
  split at found
  · simp at found
  · rename_i c rest
    dsimp only at found
    repeat' split at found
    all_goals simp only [Prod.mk.injEq, reduceCtorEq, Except.ok.injEq, false_and] at found
    all_goals obtain ⟨-, rfl⟩ := found
    · omega
    · omega
    · omega
    · omega
    · rename_i starts
      exact Numeral.written_length_pos starts
    · omega
    · rename_i member _
      simp [member]

theorem ne_nil_of_read {text : List Char} {lexeme : Lexeme} {count : Nat}
    (found : read text = (.ok lexeme, count)) : text ≠ [] := by
  rintro rfl
  simp [read] at found

end Lexeme

namespace Cursor

/-- The fault that something is wrong where the cursor stands. -/
def fault (cursor : Cursor) (cause : Cause) : Fault := ⟨cause, cursor.position⟩

/-- Read the next lexeme. The cursor moves behind it, and behind whatever was read before something
was found to be wrong. -/
def readLexeme (cursor : Cursor) : Except Fault Placed × Cursor :=
  let front := cursor.skipGap
  match Lexeme.read front.rest with
  | (.ok lexeme, count) =>
    let after := front.skip count
    (.ok ⟨lexeme, front.position, after.position⟩, after)
  | (.error cause, count) =>
    let after := front.skip count
    (.error (after.fault cause), after)

theorem length_of_readLexeme {cursor after : Cursor} {placed : Placed}
    (found : cursor.readLexeme = (.ok placed, after)) : after.rest.length < cursor.rest.length := by
  simp only [readLexeme] at found
  split at found
  · rename_i lexeme count read
    obtain ⟨-, rfl⟩ := Prod.mk.inj found
    have positive := Lexeme.read_length_pos read
    have filled := List.length_pos_iff.mpr (Lexeme.ne_nil_of_read read)
    have gap := cursor.length_skipGap_le
    rw [length_skip]
    omega
  · simp at found

/-- The lexemes up to the end of a mustache or to what is none, and the fault found there. -/
def readLexemes (cursor : Cursor) : List Placed × Option Fault × Cursor :=
  match _step : cursor.readLexeme with
  | (.error fault, after) => ([], some fault, after)
  | (.ok placed, after) =>
    if placed.lexeme = .close then ([placed], none, after)
    else
      let rest := readLexemes after
      (placed :: rest.1, rest.2)
termination_by cursor.rest.length
decreasing_by exact length_of_readLexeme _step

end Cursor

end LayoutMarkup
