import LayoutMarkup.Proofs.Call.Extension
import LayoutMarkup.Proofs.Lexeme.Numerals

/-! Where lexemes end. How far a lexeme goes is told by its own characters and the one behind them: in
front of another text it is the same if that text begins with the same character, or with one that no
word goes on with. -/

namespace LayoutMarkup

namespace Lexeme

variable {word tail other : List Char}

/-- A literal needs nothing behind the quote that ends it. -/
theorem literalBody_of_append {quote : Char} {body : List Char}
    (found : literalBody quote (word ++ tail) = .ok body) (within : body.length < word.length) :
    literalBody quote word = .ok body := by
  fun_induction literalBody quote word generalizing body with
  | case1 => cases within
  | case2 =>
    cases tail with
    | nil => cases found
    | cons c rest =>
      obtain ⟨inner, -, rfl⟩ := Except.map_eq_ok found
      simp at within
  | case3 c rest ih =>
    obtain ⟨inner, here, rfl⟩ := Except.map_eq_ok found
    rw [ih here (by simpa using within)]
    rfl
  | case4 rest last escape =>
    have plain := ne_backslash_of_literal last escape
    rwa [List.cons_append, literalBody_cons plain, if_pos rfl] at found
  | case5 c rest last escape ordinary ih =>
    have plain := ne_backslash_of_literal last escape
    rw [List.cons_append, literalBody_cons plain, if_neg ordinary] at found
    obtain ⟨inner, here, rfl⟩ := Except.map_eq_ok found
    rw [ih here (by simpa using within)]
    rfl

namespace Numeral

private theorem head_dropWhile (text : List Char) :
    ∀ c ∈ (text.dropWhile Char.isDigit).head?, c.isDigit = false := by
  intro c first
  have outside := List.head?_dropWhile_not Char.isDigit text
  rw [Option.mem_def.mp first] at outside
  exact outside

/-- What stands in front of the point of a numeral, and what stands behind that. -/
private theorem read_eq_of_unsigned (text : List Char) :
    read text = ⟨text.head? = some '-', (unsigned text).takeWhile Char.isDigit,
      pointed ((unsigned text).dropWhile Char.isDigit)⟩ := by
  have split := List.takeWhile_append_dropWhile (p := Char.isDigit) (l := unsigned text)
  have behind := (congrArg (List.drop _) split).symm.trans List.drop_left
  rw [read_eq, behind]

/-- A numeral is written at the front of the text in which it was read, before something that it would
not take in. -/
theorem exists_tail (text : List Char) :
    ∃ tail, text = (read text).written ++ tail ∧ (read text).EndsBefore tail := by
  have sign : text = (if text.head? = some '-' then ['-'] else []) ++ unsigned text := by
    cases text with
    | nil => rfl
    | cons c rest => by_cases minus : c = '-' <;> simp [unsigned, minus]
  have split := List.takeWhile_append_dropWhile (p := Char.isDigit) (l := unsigned text)
  have outside := head_dropWhile (unsigned text)
  rw [read_eq_of_unsigned]
  cases rest : (unsigned text).dropWhile Char.isDigit with
  | nil =>
    refine ⟨[], ?_, by rintro _ ⟨⟩⟩
    rw [rest, List.append_nil] at split
    simpa [written, pointed, split] using sign
  | cons c more =>
    rw [rest] at split outside
    by_cases point : c = '.'
    · subst point
      refine ⟨more.dropWhile Char.isDigit, ?_, fun d first => ⟨head_dropWhile more d first, ?_⟩⟩
      · simpa [written, pointed, split] using sign
      · exact fun whole => absurd whole (Option.some_ne_none _)
    · have whole : pointed (c :: more) = none := by simp [pointed, point]
      refine ⟨c :: more, ?_, ?_⟩
      · simpa [written, whole, split] using sign
      · rintro _ ⟨⟩
        exact ⟨outside c rfl, fun _ => point⟩

theorem isDecimal_read {text : List Char} (starts : startsNumeral text = true) :
    (read text).IsDecimal := by
  rw [read_eq_of_unsigned]
  refine ⟨?_, fun c member => List.mem_takeWhile_imp member, ?_⟩
  · match text with
    | [] => cases starts
    | [c] =>
      by_cases minus : c = '-'
      · subst minus
        cases starts
      · simpa [startsNumeral, unsigned, minus] using starts
    | c :: d :: rest =>
      by_cases minus : c = '-'
      · subst minus
        simpa [startsNumeral, unsigned] using starts
      · simpa [startsNumeral, unsigned, minus] using starts
  · intro digits found c inside
    unfold pointed at found
    split at found
    · cases found
      exact List.mem_takeWhile_imp inside
    · cases found

end Numeral

/-- Numerals begin with characters of words. -/
theorem startsNumeral_of_not_isPathChar {c : Char} (apart : isPathChar c = false) (rest : List Char) :
    startsNumeral (c :: rest) = false := by
  have minus : c ≠ '-' := by
    rintro rfl
    exact absurd apart (by decide)
  have digit : c.isDigit = false := by
    rw [← Bool.not_eq_true]
    intro digit
    rw [isPathChar_of_isDigit digit] at apart
    cases apart
  simp [startsNumeral, minus, digit]

/-- What begins with a character that is no part of words is a sign or a string. -/
theorem read_of_not_isPathChar {c : Char} (apart : isPathChar c = false) (rest : List Char) :
    read (c :: rest) =
      if c = '}' && rest.head? = some '}' then (.ok .close, 2)
      else if c = '(' then (.ok .openParen, 1)
      else if c = ')' then (.ok .closeParen, 1)
      else if c = '"' || c = '\'' then
        match literalBody c rest with
        | .ok body => (.ok (.string (String.ofList (unescape body))), body.length + 2)
        | .error cause => (.error cause, (c :: rest).length)
      else (.error (.unexpectedCharacter c), 0) := by
  have plain := startsNumeral_of_not_isPathChar apart rest
  cases literal : literalBody c rest <;>
    simp only [read, literal, plain, apart, Bool.false_eq_true, if_false]

/-- A character that is no part of words begins a lexeme that nothing behind it can change. -/
theorem read_sign_of_append {c : Char} {lexeme : Lexeme} (apart : isPathChar c = false)
    (found : read (c :: (word ++ tail)) = (.ok lexeme, word.length + 1)) (other : List Char) :
    read (c :: (word ++ other)) = (.ok lexeme, word.length + 1) := by
  rw [read_of_not_isPathChar apart] at found ⊢
  split at found
  · rename_i closes
    obtain ⟨d, rest, rfl⟩ : ∃ d rest, word = d :: rest := by
      cases word with
      | nil => simp at found
      | cons d rest => exact ⟨d, rest, rfl⟩
    exact (if_pos (by simpa using closes)).trans found
  rename_i closes
  have brace : c ≠ '}' := by
    rintro rfl
    rw [if_neg (by decide), if_neg (by decide), if_neg (by decide)] at found
    simp at found
  refine (if_neg (by simp [brace])).trans ?_
  split at found
  · rename_i opens
    exact (if_pos opens).trans found
  rename_i opens
  refine (if_neg opens).trans ?_
  split at found
  · rename_i paren
    exact (if_pos paren).trans found
  rename_i paren
  refine (if_neg paren).trans ?_
  split at found
  · rename_i quotes
    refine (if_pos quotes).trans ?_
    split at found
    · rename_i body literal
      have length : body.length + 2 = word.length + 1 := (Prod.mk.inj found).2
      rw [literalBody_more (literalBody_of_append literal (by omega)) other]
      exact found
    · simp at found
  · simp at found

theorem endsWord_congr (same : other.head? = tail.head?) (ended : EndsWord tail) : EndsWord other := by
  intro c first
  rw [same] at first
  exact ended c first

/-- A numeral goes as far as its digits do. -/
theorem read_number_of_append {lexeme : Lexeme} (starts : startsNumeral (word ++ tail) = true)
    (found : read (word ++ tail) = (.ok lexeme, word.length))
    (alike : other.head? = tail.head? ∨ EndsWord other) :
    read (word ++ other) = (.ok lexeme, word.length) := by
  rw [read_of_startsNumeral starts, Prod.mk.injEq, Except.ok.injEq] at found
  obtain ⟨rfl, length⟩ := found
  obtain ⟨behind, shape, ended⟩ := Numeral.exists_tail (word ++ tail)
  obtain ⟨written, same⟩ := List.append_inj shape length.symm
  have front : (Numeral.read (word ++ tail)).EndsBefore other := by
    rcases alike with first | apart
    · rw [← same] at ended
      intro c member
      rw [first] at member
      exact ended c member
    · exact Numeral.endsBefore_of_endsWord apart
  have again := read_numeral_of_endsBefore (Numeral.isDecimal_read starts) front
  rwa [← written] at again

/-- A name goes as far as characters join it, and a key has its sign at the end. -/
theorem read_word_of_append {c : Char} {lexeme : Lexeme} (joined : isPathChar c = true)
    (plain : startsNumeral (c :: (word ++ tail)) = false)
    (found : read (c :: (word ++ tail)) = (.ok lexeme, word.length + 1))
    (alike : other.head? = tail.head? ∨ EndsWord other) :
    read (c :: (word ++ other)) = (.ok lexeme, word.length + 1) := by
  have split := List.takeWhile_append_dropWhile (p := isPathChar) (l := c :: (word ++ tail))
  have filled : (c :: (word ++ tail)).takeWhile isPathChar ≠ [] := by simp [joined]
  have inside : ∀ d ∈ (c :: (word ++ tail)).takeWhile isPathChar, isPathChar d = true :=
    fun d member => List.mem_takeWhile_imp member
  have key : IsKey ((c :: (word ++ tail)).takeWhile isPathChar) :=
    ⟨filled, inside, startsNumeral_takeWhile plain filled⟩
  have outside := List.head?_dropWhile_not isPathChar (c :: (word ++ tail))
  have behind := (congrArg (List.drop _) split).symm.trans List.drop_left
  rw [read_of_isPathChar joined plain, behind] at found
  generalize (c :: (word ++ tail)).takeWhile isPathChar = taken at found split key
  generalize (c :: (word ++ tail)).dropWhile isPathChar = rest at found split outside
  split at found
  · rename_i equals
    obtain ⟨rest, rfl⟩ := List.head?_eq_some_iff.mp equals
    obtain ⟨rfl, length⟩ : _ ∧ _ := by simpa using found
    have shape : (taken ++ ['=']) ++ rest = (c :: word) ++ tail := by simpa using split
    obtain ⟨whole, rfl⟩ := List.append_inj shape (by simpa using length)
    have text : taken ++ '=' :: other = c :: (word ++ other) := by
      rw [List.append_cons, whole, List.cons_append]
    rw [← text, read_key key other, length]
  · rename_i equals
    obtain ⟨rfl, length⟩ : _ ∧ _ := by simpa using found
    have shape : taken ++ rest = (c :: word) ++ tail := split
    obtain ⟨rfl, rfl⟩ := List.append_inj shape (by simpa using length)
    have ended : EndsWord rest := by
      intro d first
      rw [Option.mem_def.mp first] at outside equals
      exact ⟨outside, fun same => equals (congrArg some same)⟩
    have front : EndsWord other := alike.elim (endsWord_congr · ended) id
    exact read_word key front

/-- Before a text with the same first character, or with one that ends words, a lexeme is the same. -/
theorem read_of_append {lexeme : Lexeme} (found : read (word ++ tail) = (.ok lexeme, word.length))
    (alike : other.head? = tail.head? ∨ EndsWord other) :
    read (word ++ other) = (.ok lexeme, word.length) := by
  obtain ⟨c, rest, rfl⟩ := List.exists_cons_of_length_pos (read_length_pos found)
  by_cases joined : isPathChar c = true
  · by_cases starts : startsNumeral (c :: (rest ++ tail)) = true
    · exact read_number_of_append starts found alike
    · exact read_word_of_append joined (by simpa using starts) found alike
  · exact read_sign_of_append (by simpa using joined) found other

theorem endsWord_sign (tail : List Char) : EndsWord ('~' :: tail) := by
  rintro _ ⟨⟩
  decide

end Lexeme

namespace Cursor

open Lexeme

variable {cursor after : Cursor} {gap word tail : List Char}

/-- A gap is passed as a whole, with the sign at its end. -/
theorem rest_skipGap_of_isGap (isGap : IsGap gap) (shape : cursor.rest = gap ++ tail)
    (outside : ∀ c ∈ tail.head?, Unicode.isBlank c = false ∧ c ≠ '~') : cursor.skipGap.rest = tail := by
  obtain ⟨blanks, sign, rfl, blank, rfl | rfl⟩ := isGap
  · rw [List.append_nil] at shape
    exact rest_skipGap shape blank outside
  · rw [List.append_assoc] at shape
    have behind : cursor.skipBlank.rest = ['~'] ++ tail := by
      apply rest_skipBlank shape blank
      rintro _ ⟨⟩
      decide
    rw [skipGap_eq, eat?_of_shape behind]
    exact rest_skip behind

/-- A lexeme is read behind a gap just as it is read by itself. -/
theorem readLexeme_of_isGap {lexeme : Lexeme} (isGap : IsGap gap)
    (shape : cursor.rest = gap ++ (word ++ tail))
    (found : Lexeme.read (word ++ tail) = (.ok lexeme, word.length)) :
    ∃ span behind, cursor.readLexeme = (.ok ⟨lexeme, span⟩, behind) ∧ behind.rest = tail := by
  have front := rest_skipGap_of_isGap isGap shape (read_begins found)
  refine ⟨⟨cursor.skipGap.position, (cursor.skipGap.skip word.length).position⟩,
    cursor.skipGap.skip word.length, ?_, rest_skip front⟩
  simp only [readLexeme, front, found]

/-- A lexeme that something is left behind is read by every cursor before the same gap and the same
lexeme, unless what stands behind would join it. -/
theorem readLexeme_of_append {placed : Placed} (found : cursor.readLexeme = (.ok placed, after))
    (left : after.rest ≠ []) :
    ∃ gap word, cursor.rest = gap ++ (word ++ after.rest) ∧
      ∀ (other : Cursor) (tail : List Char), other.rest = gap ++ (word ++ tail) →
        tail.head? = after.rest.head? ∨ EndsWord tail →
        ∃ span behind, other.readLexeme = (.ok ⟨placed.lexeme, span⟩, behind) ∧
          behind.rest = tail := by
  obtain ⟨gap, isGap, passed⟩ := cursor.exists_passes_skipGap
  obtain ⟨count, read, rfl⟩ := read_of_readLexeme found
  have length : (cursor.skipGap.rest.take count).length = count :=
    List.length_take_of_le (le_of_left left)
  have whole : cursor.skipGap.rest = cursor.skipGap.rest.take count ++ (cursor.skipGap.skip count).rest :=
    (List.take_append_drop count _).symm
  have front : Lexeme.read (cursor.skipGap.rest.take count ++ (cursor.skipGap.skip count).rest) =
      (.ok placed.lexeme, (cursor.skipGap.rest.take count).length) := by
    rw [length, ← whole]
    exact read
  refine ⟨gap, cursor.skipGap.rest.take count, ?_, ?_⟩
  · rw [← whole]
    exact passed.rest
  · intro other tail shape alike
    exact readLexeme_of_isGap isGap shape (read_of_append front alike)

end Cursor

end LayoutMarkup
