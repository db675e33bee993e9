import LayoutMarkup.Call.Print
import LayoutMarkup.Proofs.Source.Cursor

/-! Names and keys. A word that was read is a word when it is read again, whatever it stands before,
as long as no character behind it would join it. -/

namespace LayoutMarkup

namespace Lexeme

/-- A word that is read as the key of a named argument when an `=` stands behind it. -/
structure IsKey (word : List Char) : Prop where
  filled : word ≠ []
  joined : ∀ c ∈ word, isPathChar c = true
  notNumeral : startsNumeral word = false

/-- A word that is read as a name. -/
structure IsName (word : List Char) : Prop extends IsKey word where
  notTrue : word ≠ ['t', 'r', 'u', 'e']
  notFalse : word ≠ ['f', 'a', 'l', 's', 'e']

/-- A text whose first character ends a word before it. -/
def EndsWord (tail : List Char) : Prop := ∀ c ∈ tail.head?, isPathChar c = false ∧ c ≠ '='

theorem endsWord_blank (tail : List Char) : EndsWord (' ' :: tail) := by
  rintro _ ⟨⟩
  decide

theorem endsWord_paren (tail : List Char) : EndsWord (')' :: tail) := by
  rintro _ ⟨⟩
  decide

theorem endsWord_brace (tail : List Char) : EndsWord ('}' :: tail) := by
  rintro _ ⟨⟩
  decide

theorem isPathChar_of_isDigit {c : Char} (digit : c.isDigit = true) : isPathChar c = true := by
  have bounds : '0'.val.toNat = 48 ∧ '9'.val.toNat = 57 := by decide
  have code : c.val.toNat = c.toNat := rfl
  have range := digit
  simp only [Char.isDigit, Bool.and_eq_true, decide_eq_true_eq, UInt32.le_iff_toNat_le] at range
  have ascii : c.toNat < 0x80 := by omega
  simp [isPathChar, Unicode.isAlphanumeric, Unicode.isNumeric, ascii, digit]

/-- Whether a word is a numeral is told by its own characters. -/
theorem startsNumeral_append {word tail : List Char} (filled : word ≠ [])
    (ended : ∀ c ∈ tail.head?, c.isDigit = false) :
    startsNumeral (word ++ tail) = startsNumeral word := by
  match word with
  | [] => exact absurd rfl filled
  | [c] =>
    by_cases minus : c = '-'
    · subst minus
      cases tail with
      | nil => rfl
      | cons d rest => simpa [startsNumeral] using ended d (by simp)
    · simp [startsNumeral, minus]
  | c :: d :: word =>
    by_cases minus : c = '-'
    · subst minus
      rfl
    · simp [startsNumeral, minus]

theorem startsNumeral_takeWhile {text : List Char} (plain : startsNumeral text = false)
    (filled : text.takeWhile isPathChar ≠ []) :
    startsNumeral (text.takeWhile isPathChar) = false := by
  have split := List.takeWhile_append_dropWhile (p := isPathChar) (l := text)
  rw [← split, startsNumeral_append filled] at plain
  · exact plain
  · intro c first
    have outside := List.head?_dropWhile_not isPathChar text
    cases rest : text.dropWhile isPathChar with
    | nil => simp [rest] at first
    | cons d others =>
      simp only [rest, List.head?_cons, Option.mem_def, Option.some.injEq] at first outside
      subst first
      rw [← Bool.not_eq_true]
      intro digit
      rw [isPathChar_of_isDigit digit] at outside
      cases outside

variable {word tail : List Char}

theorem IsKey.not_startsNumeral (key : IsKey word) (ended : EndsWord tail) :
    startsNumeral (word ++ tail) = false := by
  rw [startsNumeral_append key.filled]
  · exact key.notNumeral
  · intro c first
    rw [← Bool.not_eq_true]
    intro digit
    have joined := isPathChar_of_isDigit digit
    rw [(ended c first).1] at joined
    cases joined

/-- The characters that begin another lexeme than a word are no path characters. -/
theorem read_of_isPathChar {c : Char} {rest : List Char} (joined : isPathChar c = true)
    (plain : startsNumeral (c :: rest) = false) :
    read (c :: rest) =
      if ((c :: rest).drop ((c :: rest).takeWhile isPathChar).length).head? = some '=' then
        (.ok (.key (String.ofList ((c :: rest).takeWhile isPathChar))),
          ((c :: rest).takeWhile isPathChar).length + 1)
      else (.ok (ofWord ((c :: rest).takeWhile isPathChar)),
        ((c :: rest).takeWhile isPathChar).length) := by
  have others : c ≠ '}' ∧ c ≠ '(' ∧ c ≠ ')' ∧ c ≠ '"' ∧ c ≠ '\'' := by
    refine ⟨?_, ?_, ?_, ?_, ?_⟩ <;> rintro rfl <;> exact absurd joined (by decide)
  obtain ⟨brace, opening, closing, double, single⟩ := others
  simp [read, brace, opening, closing, double, single, plain, joined]

theorem read_word (key : IsKey word) (ended : EndsWord tail) :
    read (word ++ tail) = (.ok (ofWord word), word.length) := by
  have taken : (word ++ tail).takeWhile isPathChar = word :=
    takeWhile_append_stop key.joined fun c first => (ended c first).1
  have plain := key.not_startsNumeral ended
  obtain ⟨c, rest, rfl⟩ := List.exists_cons_of_ne_nil key.filled
  have behind : tail.head? ≠ some '=' := fun equals => (ended '=' equals).2 rfl
  rw [List.cons_append] at taken plain ⊢
  rw [read_of_isPathChar (key.joined c List.mem_cons_self) plain, taken, ← List.cons_append,
    List.drop_left, if_neg behind]

theorem ofWord_of_isName (name : IsName word) : ofWord word = .path (String.ofList word) := by
  simp [ofWord, name.notTrue, name.notFalse]

theorem read_name (name : IsName word) (ended : EndsWord tail) :
    read (word ++ tail) = (.ok (.path (String.ofList word)), word.length) := by
  rw [read_word name.toIsKey ended, ofWord_of_isName name]

theorem read_key (key : IsKey word) (tail : List Char) :
    read (word ++ '=' :: tail) = (.ok (.key (String.ofList word)), word.length + 1) := by
  have taken : (word ++ '=' :: tail).takeWhile isPathChar = word := by
    apply takeWhile_append_stop key.joined
    rintro _ ⟨⟩
    decide
  have plain : startsNumeral (word ++ '=' :: tail) = false := by
    rw [startsNumeral_append key.filled (by rintro _ ⟨⟩; decide)]
    exact key.notNumeral
  obtain ⟨c, rest, rfl⟩ := List.exists_cons_of_ne_nil key.filled
  rw [List.cons_append] at taken plain ⊢
  rw [read_of_isPathChar (key.joined c List.mem_cons_self) plain, taken, ← List.cons_append,
    List.drop_left, List.head?_cons, if_pos rfl]

theorem read_boolean (value : Bool) (ended : EndsWord tail) :
    read (booleanText value ++ tail) = (.ok (.boolean value), (booleanText value).length) := by
  have key : IsKey (booleanText value) := by
    cases value <;> exact ⟨by decide, by decide, by decide⟩
  rw [read_word key ended]
  cases value <;> rfl

theorem read_openParen (tail : List Char) : read ('(' :: tail) = (.ok .openParen, 1) := by
  simp [read]

theorem read_closeParen (tail : List Char) : read (')' :: tail) = (.ok .closeParen, 1) := by
  simp [read]

theorem read_close (tail : List Char) : read ('}' :: '}' :: tail) = (.ok .close, 2) := by
  simp [read]

/-- No lexeme begins with what a gap is made of. -/
theorem read_begins {text : List Char} {lexeme : Lexeme} {count : Nat}
    (found : read text = (.ok lexeme, count)) :
    ∀ c ∈ text.head?, Unicode.isBlank c = false ∧ c ≠ '~' := by
  intro c first
  obtain ⟨rest, rfl⟩ := List.head?_eq_some_iff.mp first
  have signs : (∀ d ∈ ['}', '(', ')', '"', '\''], Unicode.isBlank d = false ∧ d ≠ '~') := by decide
  by_cases sign : c ∈ ['}', '(', ')', '"', '\'']
  · exact signs c sign
  · simp only [List.mem_cons, List.not_mem_nil, or_false, not_or] at sign
    obtain ⟨brace, opening, closing, double, single⟩ := sign
    suffices joined : isPathChar c = true by
      refine ⟨not_blank_of_isPathChar joined, ?_⟩
      rintro rfl
      exact absurd joined (by decide)
    by_cases minus : c = '-'
    · subst minus
      decide
    · by_cases digit : c.isDigit = true
      · exact isPathChar_of_isDigit digit
      · have plain : startsNumeral (c :: rest) = false := by
          simp [startsNumeral, minus, digit]
        simp only [read, brace, opening, closing, double, single, plain] at found
        by_cases joined : isPathChar c = true
        · exact joined
        · simp [joined] at found

/-- A name that was read is one that is read again. -/
theorem isName_of_read {text : List Char} {word : String} {count : Nat}
    (found : read text = (.ok (.path word), count)) : IsName word.toList := by
  unfold read at found
  split at found
  · simp at found
  · rename_i c rest
    dsimp only at found
    repeat' split at found
    all_goals simp only [Prod.mk.injEq, reduceCtorEq, Except.ok.injEq, false_and] at found
    rename_i plain joined behind
    have filled : (c :: rest).takeWhile isPathChar ≠ [] := by simp [joined]
    simp only [ofWord] at found
    repeat' split at found
    all_goals simp only [reduceCtorEq, false_and, Lexeme.path.injEq] at found
    rename_i notTrue notFalse
    obtain ⟨rfl, -⟩ := found
    rw [String.toList_ofList]
    refine ⟨⟨filled, fun d member => List.mem_takeWhile_imp member, ?_⟩, notTrue, notFalse⟩
    exact startsNumeral_takeWhile (by simpa using plain) filled

/-- A name is read up to the first character that does not join it. -/
theorem takeWhile_of_read {text : List Char} {word : String} {count : Nat}
    (found : read text = (.ok (.path word), count)) :
    text.takeWhile isPathChar = word.toList ∧ count = word.toList.length := by
  unfold read at found
  split at found
  · simp at found
  · rename_i c rest
    dsimp only at found
    repeat' split at found
    all_goals simp only [Prod.mk.injEq, reduceCtorEq, Except.ok.injEq, false_and] at found
    simp only [ofWord] at found
    repeat' split at found
    all_goals simp only [reduceCtorEq, false_and, Lexeme.path.injEq] at found
    obtain ⟨rfl, rfl⟩ := found
    simp only [String.toList_ofList, and_self]

/-- A key that was read is one that is read again. -/
theorem isKey_of_read {text : List Char} {word : String} {count : Nat}
    (found : read text = (.ok (.key word), count)) : IsKey word.toList := by
  unfold read at found
  split at found
  · simp at found
  · rename_i c rest
    dsimp only at found
    repeat' split at found
    all_goals simp only [Prod.mk.injEq, reduceCtorEq, Except.ok.injEq, false_and] at found
    · rename_i plain joined behind
      have filled : (c :: rest).takeWhile isPathChar ≠ [] := by simp [joined]
      obtain ⟨key, -⟩ := found
      obtain rfl := Lexeme.key.inj key
      rw [String.toList_ofList]
      refine ⟨filled, fun d member => List.mem_takeWhile_imp member, ?_⟩
      exact startsNumeral_takeWhile (by simpa using plain) filled
    · simp only [ofWord] at found
      repeat' split at found
      all_goals simp at found

end Lexeme

namespace Cursor

open Lexeme

variable {cursor : Cursor} {gap text tail : List Char}

/-- A lexeme is read behind blanks just as it is read by itself. -/
theorem readLexeme_of_read {lexeme : Lexeme} (shape : cursor.rest = gap ++ (text ++ tail))
    (blank : ∀ c ∈ gap, Unicode.isBlank c = true)
    (found : read (text ++ tail) = (.ok lexeme, text.length)) :
    ∃ span after, cursor.readLexeme = (.ok ⟨lexeme, span⟩, after) ∧ after.rest = tail := by
  have front := rest_skipGap shape blank (read_begins found)
  refine ⟨⟨cursor.skipGap.position, (cursor.skipGap.skip text.length).position⟩,
    cursor.skipGap.skip text.length, ?_, rest_skip front⟩
  simp only [readLexeme, front, found]

/-- Where a lexeme begins there is no gap. -/
theorem skipGap_of_isPathChar {c : Char} (shape : cursor.rest = c :: tail)
    (joined : isPathChar c = true) : cursor.skipGap = cursor := by
  have blank : Unicode.isBlank c = false := not_blank_of_isPathChar joined
  have other : c ≠ '~' := by
    rintro rfl
    exact absurd joined (by decide)
  have unmoved : cursor.skipBlank = cursor := by
    simp [skipBlank, skipRun, run, shape, blank, skip_zero]
  simp [skipGap, unmoved, eat?, sees, shape, List.isPrefixOf, Ne.symm other]

/-- A name that comes next is the next lexeme. -/
theorem readLexeme_name {word : List Char} (name : IsName word) (ended : EndsWord tail)
    (shape : cursor.rest = word ++ tail) :
    ∃ span, cursor.readLexeme = (.ok ⟨.path (String.ofList word), span⟩, cursor.skip word.length) := by
  obtain ⟨c, rest, rfl⟩ := List.exists_cons_of_ne_nil name.filled
  have gapless := skipGap_of_isPathChar shape (name.joined c List.mem_cons_self)
  refine ⟨⟨cursor.position, (cursor.skip (c :: rest).length).position⟩, ?_⟩
  simp only [readLexeme, gapless, shape, read_name name ended]

/-- What `readLexeme` gives is the lexeme behind the gap. -/
theorem read_of_readLexeme {placed : Placed} {after : Cursor}
    (found : cursor.readLexeme = (.ok placed, after)) :
    ∃ count, read cursor.skipGap.rest = (.ok placed.lexeme, count) ∧
      after = cursor.skipGap.skip count := by
  simp only [readLexeme] at found
  split at found
  · rename_i lexeme count step
    cases found
    exact ⟨count, step, rfl⟩
  · cases found

end Cursor

end LayoutMarkup
