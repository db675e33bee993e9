import LayoutMarkup.Proofs.Lexeme.Boundaries
import LayoutMarkup.Proofs.Lexeme.Moves
import LayoutMarkup.Proofs.Source.Order

/-! The lexemes of a mustache cut up its source. Each lexeme is written in the source where its span says
it is, there are only gaps between them, and so no character is lost and none is read twice. Whether the
mustache ends next can be told beforehand, and telling changes nothing. -/

namespace LayoutMarkup

namespace Lexeme

/-- What stands between two quotes of a kind, and the characters that are meant. A backslash stands for the
character behind it, be it a quote or another backslash. -/
inductive Quotes (quote : Char) : List Char → List Char → Prop
  | nil : Quotes quote [] []
  | escaped (c : Char) {body value : List Char} (rest : Quotes quote body value) :
      Quotes quote ('\\' :: c :: body) (c :: value)
  | plain {c : Char} {body value : List Char} (other : c ≠ quote) (ordinary : c ≠ '\\')
      (rest : Quotes quote body value) : Quotes quote (c :: body) (c :: value)

/-- The text that a lexeme is written as. -/
inductive IsWritten : Lexeme → List Char → Prop
  | path (word : String) : IsWritten (.path word) word.toList
  | boolean (value : Bool) : IsWritten (.boolean value) (booleanText value)
  | key (word : String) : IsWritten (.key word) (word.toList ++ ['='])
  | string {quote : Char} {body value : List Char} (kind : quote = '"' ∨ quote = '\'')
      (quotes : Quotes quote body value) :
      IsWritten (.string (String.ofList value)) (quote :: (body ++ [quote]))
  | number {numeral : Numeral} (decimal : numeral.IsDecimal) :
      IsWritten (.number numeral.value) numeral.written
  | openParen : IsWritten .openParen ['(']
  | closeParen : IsWritten .closeParen [')']
  | close : IsWritten .close ['}', '}']

variable {text : List Char}

/-- A literal ends with the first quote that no backslash stands for. -/
theorem quotes_of_literalBody {quote : Char} {body : List Char}
    (found : literalBody quote text = .ok body) :
    Quotes quote body (unescape body) ∧ body ++ [quote] <+: text := by
  fun_induction literalBody quote text generalizing body with
  | case1 => cases found
  | case2 => cases found
  | case3 c rest ih =>
    obtain ⟨inner, here, rfl⟩ := Except.map_eq_ok found
    obtain ⟨quotes, front⟩ := ih here
    exact ⟨.escaped c quotes, List.cons_prefix_cons.mpr ⟨rfl, List.cons_prefix_cons.mpr ⟨rfl, front⟩⟩⟩
  | case4 rest last escape =>
    cases found
    exact ⟨.nil, List.cons_prefix_cons.mpr ⟨rfl, List.nil_prefix⟩⟩
  | case5 c rest last escape other ih =>
    have ordinary := ne_backslash_of_literal last escape
    obtain ⟨inner, here, rfl⟩ := Except.map_eq_ok found
    obtain ⟨quotes, front⟩ := ih here
    have meant : unescape (c :: inner) = c :: unescape inner := by
      rw [unescape]
      exact fun _ _ backslash _ => ordinary backslash
    rw [meant]
    exact ⟨.plain other ordinary quotes, List.cons_prefix_cons.mpr ⟨rfl, front⟩⟩

theorem isWritten_ofWord (word : List Char) : (ofWord word).IsWritten word := by
  unfold ofWord
  split
  · rename_i same
    rw [same]
    exact .boolean true
  · split
    · rename_i same
      rw [same]
      exact .boolean false
    · have written := IsWritten.path (String.ofList word)
      rwa [String.toList_ofList] at written

/-- A word is a name or a keyword, and with an `=` behind it a key. -/
theorem isWritten_of_isPathChar {c : Char} {rest : List Char} {lexeme : Lexeme} {count : Nat}
    (joined : isPathChar c = true) (plain : startsNumeral (c :: rest) = false)
    (found : read (c :: rest) = (.ok lexeme, count)) : lexeme.IsWritten ((c :: rest).take count) := by
  have split := List.takeWhile_append_dropWhile (p := isPathChar) (l := c :: rest)
  have behind := (congrArg (List.drop _) split).symm.trans List.drop_left
  rw [read_of_isPathChar joined plain, behind] at found
  generalize (c :: rest).takeWhile isPathChar = word at found split
  generalize (c :: rest).dropWhile isPathChar = tail at found split
  rw [← split]
  split at found
  · rename_i equals
    obtain ⟨more, rfl⟩ := List.head?_eq_some_iff.mp equals
    cases found
    have written := IsWritten.key (String.ofList word)
    rw [String.toList_ofList] at written
    rwa [List.append_cons, List.take_left' (by simp)]
  · cases found
    rw [List.take_left]
    exact isWritten_ofWord word

theorem isWritten_of_startsNumeral {lexeme : Lexeme} {count : Nat} (starts : startsNumeral text = true)
    (found : read text = (.ok lexeme, count)) : lexeme.IsWritten (text.take count) := by
  rw [read_of_startsNumeral starts] at found
  cases found
  obtain ⟨tail, shape, -⟩ := Numeral.exists_tail text
  have front : text.take (Numeral.read text).written.length = (Numeral.read text).written :=
    (List.prefix_iff_eq_take.mp ⟨tail, shape.symm⟩).symm
  rw [front]
  exact .number (Numeral.isDecimal_read starts)

/-- Parentheses, braces and quoted texts. -/
theorem isWritten_of_not_isPathChar {c : Char} {rest : List Char} {lexeme : Lexeme} {count : Nat}
    (apart : isPathChar c = false) (found : read (c :: rest) = (.ok lexeme, count)) :
    lexeme.IsWritten ((c :: rest).take count) := by
  rw [read_of_not_isPathChar apart] at found
  split at found
  · rename_i closes
    simp only [Bool.and_eq_true, decide_eq_true_eq, List.head?_eq_some_iff] at closes
    obtain ⟨rfl, tail, rfl⟩ := closes
    cases found
    exact .close
  split at found
  · rename_i opens
    cases found
    rw [opens]
    exact .openParen
  split at found
  · rename_i closes
    cases found
    rw [closes]
    exact .closeParen
  split at found
  · rename_i quotes
    split at found
    · rename_i body literal
      cases found
      obtain ⟨meant, tail, shape⟩ := quotes_of_literalBody literal
      rw [← shape, List.take_succ_cons, List.take_left' (by simp)]
      exact .string (by simpa using quotes) meant
    · cases found
  · cases found

/-- What is read as a lexeme is the text that the lexeme is written as. -/
theorem isWritten_of_read {lexeme : Lexeme} {count : Nat} (found : read text = (.ok lexeme, count)) :
    lexeme.IsWritten (text.take count) := by
  obtain ⟨c, rest, rfl⟩ := List.exists_cons_of_ne_nil (ne_nil_of_read found)
  by_cases joined : isPathChar c = true
  · by_cases starts : startsNumeral (c :: rest) = true
    · exact isWritten_of_startsNumeral starts found
    · exact isWritten_of_isPathChar joined (by simpa using starts) found
  · exact isWritten_of_not_isPathChar (by simpa using joined) found

end Lexeme

/-- Lexemes that cut up a source from a place on. There is a gap from where the one before it ends to where
a lexeme starts; a lexeme ends later than it starts; and it is written in the source from start to end. -/
def CutUp (source : String) : Position → List Placed → Prop
  | _, [] => True
  | place, placed :: rest =>
    place.UpTo placed.span.start ∧ IsGap (Span.slice ⟨place, placed.span.start⟩ source) ∧
      placed.span.start.Before placed.span.stop ∧
      placed.lexeme.IsWritten (placed.span.slice source) ∧ CutUp source placed.span.stop rest

namespace Cursor

variable {cursor after last : Cursor} {placed : Placed} {lexemes : List Placed} {fault : Option Fault}

/-- Lexemes that are read one after another, until one of them ends the mustache or there is none. -/
inductive Lexes : Cursor → List Placed → Option Fault → Cursor → Prop
  | closed {cursor after : Cursor} {placed : Placed} (found : cursor.readLexeme = (.ok placed, after))
      (closes : placed.lexeme = .close) : Lexes cursor [placed] none after
  | refused {cursor after : Cursor} {fault : Fault} (refused : cursor.readLexeme = (.error fault, after)) :
      Lexes cursor [] (some fault) after
  | next {cursor after last : Cursor} {placed : Placed} {lexemes : List Placed} {fault : Option Fault}
      (found : cursor.readLexeme = (.ok placed, after)) (goesOn : placed.lexeme ≠ .close)
      (rest : Lexes after lexemes fault last) : Lexes cursor (placed :: lexemes) fault last

/-- Reading lexemes comes to an end, as each of them takes at least one character. -/
theorem lexes_readLexemes (cursor : Cursor) :
    cursor.Lexes cursor.readLexemes.1 cursor.readLexemes.2.1 cursor.readLexemes.2.2 := by
  fun_induction readLexemes cursor with
  | case1 cursor fault after step => exact .refused step
  | case2 cursor placed after step closes => exact .closed step closes
  | case3 cursor placed after step goesOn rest ih => exact .next step goesOn ih

/-- A lexeme stands behind a gap, and its span is that of its text. -/
theorem exists_text_of_readLexeme (found : cursor.readLexeme = (.ok placed, after)) :
    ∃ gap text, IsGap gap ∧ placed.lexeme.IsWritten text ∧ text ≠ [] ∧
      cursor.rest = gap ++ (text ++ after.rest) ∧
      placed.span = ⟨cursor.position.after gap, (cursor.position.after gap).after text⟩ ∧
      after.position = placed.span.stop := by
  obtain ⟨gap, isGap, skipped⟩ := cursor.exists_passes_skipGap
  simp only [readLexeme] at found
  split at found
  · rename_i lexeme count read
    cases found
    have passed := cursor.skipGap.passes_skip count
    have filled : cursor.skipGap.rest.take count ≠ [] := by
      rw [ne_eq, List.take_eq_nil_iff, not_or]
      exact ⟨Nat.ne_of_gt (Lexeme.read_length_pos read), Lexeme.ne_nil_of_read read⟩
    refine ⟨gap, _, isGap, Lexeme.isWritten_of_read read, filled, ?_, ?_, rfl⟩
    · rw [skipped.rest, ← passed.rest]
    · rw [passed.position, skipped.position]
  · cases found

theorem cutUp_of_lexes {source : String} (lexes : cursor.Lexes lexemes fault last)
    (holds : HoldsAt source cursor.position cursor.rest) : CutUp source cursor.position lexemes := by
  have cut {cursor after : Cursor} {placed : Placed} (found : cursor.readLexeme = (.ok placed, after))
      (holds : HoldsAt source cursor.position cursor.rest) :
      (cursor.position.UpTo placed.span.start ∧
        IsGap (Span.slice ⟨cursor.position, placed.span.start⟩ source) ∧
        placed.span.start.Before placed.span.stop ∧
        placed.lexeme.IsWritten (placed.span.slice source)) ∧
      HoldsAt source after.position after.rest ∧ after.position = placed.span.stop := by
    obtain ⟨gap, text, isGap, written, filled, shape, span, reached⟩ := exists_text_of_readLexeme found
    rw [shape] at holds
    have behind := holds.back
    rw [reached, span, holds.front.slice, behind.front.slice]
    exact ⟨⟨Position.upTo_after _ gap, isGap, Position.before_after _ filled, written⟩, behind.back, rfl⟩
  induction lexes with
  | closed found closes =>
    obtain ⟨⟨onward, isGap, wide, written⟩, -⟩ := cut found holds
    exact ⟨onward, isGap, wide, written, trivial⟩
  | refused => trivial
  | next found goesOn rest ih =>
    obtain ⟨⟨onward, isGap, wide, written⟩, behind, reached⟩ := cut found holds
    exact ⟨onward, isGap, wide, written, reached ▸ ih behind⟩

theorem length_le_of_lexes (lexes : cursor.Lexes lexemes fault last) :
    lexemes.length ≤ cursor.rest.length := by
  induction lexes with
  | closed found closes => exact Nat.succ_le_of_lt (Nat.zero_lt_of_lt (length_of_readLexeme found))
  | refused => exact Nat.zero_le _
  | next found goesOn rest ih => exact Nat.lt_of_le_of_lt ih (length_of_readLexeme found)

/-- Behind blanks there are no more of them. -/
theorem skipBlank_skipBlank (cursor : Cursor) : cursor.skipBlank.skipBlank = cursor.skipBlank := by
  have none : cursor.skipBlank.run Unicode.isBlank = [] := by
    have outside := cursor.head_skipRun Unicode.isBlank
    rw [run]
    cases rest : cursor.skipBlank.rest with
    | nil => rfl
    | cons c tail =>
      have clear : Unicode.isBlank c = false := outside c (by rw [← skipBlank, rest]; rfl)
      rw [List.takeWhile_cons_of_neg (by simp [clear])]
  conv_lhs => rw [skipBlank, skipRun, none]
  exact skip_zero _

theorem readLexeme_skipBlank (cursor : Cursor) : cursor.skipBlank.readLexeme = cursor.readLexeme := by
  have same : cursor.skipBlank.skipGap = cursor.skipGap := by
    rw [skipGap_eq, skipGap_eq, skipBlank_skipBlank]
  rw [readLexeme, readLexeme, same]

/-- The end of a mustache is the next lexeme exactly if its braces stand behind the gap. -/
theorem readLexeme_close_iff (cursor : Cursor) :
    (∃ placed after, cursor.readLexeme = (.ok placed, after) ∧ placed.lexeme = .close) ↔
      ['}', '}'] <+: cursor.skipGap.rest := by
  constructor
  · rintro ⟨placed, after, found, closes⟩
    obtain ⟨count, read, -⟩ := read_of_readLexeme found
    rw [← (Lexeme.take_of_read read).2 closes]
    exact List.take_prefix count _
  · rintro ⟨tail, shape⟩
    obtain ⟨gap, isGap, skipped⟩ := cursor.exists_passes_skipGap
    have whole : cursor.rest = gap ++ (['}', '}'] ++ tail) := by rw [skipped.rest, ← shape]
    obtain ⟨span, after, found, -⟩ := readLexeme_of_isGap isGap whole (Lexeme.read_close tail)
    exact ⟨_, after, found, rfl⟩

/-- The end of a mustache is seen exactly if it is the next lexeme. -/
theorem seesClose_skipBlank_iff (cursor : Cursor) : cursor.skipBlank.seesClose = true ↔
    ∃ placed after, cursor.readLexeme = (.ok placed, after) ∧ placed.lexeme = .close := by
  rw [readLexeme_close_iff, seesClose, Bool.or_eq_true, sees_iff, sees_iff, skipGap_eq]
  cases eaten : cursor.skipBlank.eat? ['~'] with
  | none =>
    have unsigned := eat?_eq_none_iff.mp eaten
    refine or_iff_left fun signed => unsigned ?_
    exact (List.prefix_append ['~'] ['}', '}']).trans signed
  | some after =>
    have shape := (passes_of_eat? eaten).rest
    rw [Option.getD_some, shape]
    simp

/-- From wherever a row of moves has led in a source, reading lexemes one after another comes to an end, which
is the end of a mustache or a fault. The lexemes cut up what they were read from. Whether the next of them is
the end of a mustache is told beforehand, and telling leaves it as it is. -/
theorem lexemes_cut_up_source (source : String) (moves : List Move) :
    let cursor := (ofString source).performAll moves
    (∃ lexemes fault last, cursor.Lexes lexemes fault last ∧ cursor.readLexemes = (lexemes, fault, last) ∧
      lexemes.length ≤ cursor.rest.length ∧ CutUp source cursor.position lexemes) ∧
    ∃ holds after, cursor.perform .seeClose = (.flag holds, after) ∧
      (holds = true ↔
        ∃ placed behind, cursor.readLexeme = (.ok placed, behind) ∧ placed.lexeme = .close) ∧
      after.readLexeme = cursor.readLexeme := by
  intro cursor
  obtain ⟨consumed, passed⟩ := (ofString source).reaches_performAll moves
  have holds : HoldsAt source cursor.position cursor.rest := by
    refine ⟨consumed, [], ?_, passed.position⟩
    rw [List.append_nil]
    exact passed.rest
  have lexes := cursor.lexes_readLexemes
  exact ⟨⟨_, _, _, lexes, rfl, length_le_of_lexes lexes, cutUp_of_lexes lexes holds⟩,
    _, _, rfl, cursor.seesClose_skipBlank_iff, cursor.readLexeme_skipBlank⟩

end Cursor

end LayoutMarkup
