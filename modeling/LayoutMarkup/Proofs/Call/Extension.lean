import LayoutMarkup.Proofs.Call.Extent
import LayoutMarkup.Proofs.Source.Extension
import Mathlib.Data.List.Basic

/-! Lexemes and calls in text that goes on. A lexeme that something is left behind is the same lexeme when
more text follows, and so is the end of a mustache; a call ends with its mustache, and so is the same
call in every text that begins with it. -/

namespace LayoutMarkup

namespace Lexeme

variable {text : List Char}

theorem literalBody_cons {quote c : Char} (plain : c ≠ '\\') (rest : List Char) :
    literalBody quote (c :: rest) =
      if c = quote then .ok [] else (literalBody quote rest).map (c :: ·) := by
  rw [literalBody]
  · exact fun backslash _ => plain backslash
  · exact fun _ _ backslash _ => plain backslash

theorem ne_backslash_of_literal {c : Char} {rest : List Char} (last : c = '\\' → rest = [] → False)
    (escape : ∀ d others, c = '\\' → rest = d :: others → False) : c ≠ '\\' := by
  rintro rfl
  cases rest with
  | nil => exact last rfl rfl
  | cons d others => exact escape d others rfl rfl

theorem literalBody_more {quote : Char} {body : List Char} (found : literalBody quote text = .ok body)
    (more : List Char) : literalBody quote (text ++ more) = .ok body := by
  fun_induction literalBody quote text generalizing body with
  | case1 => cases found
  | case2 => cases found
  | case3 c rest ih =>
    obtain ⟨inner, here, rfl⟩ := Except.map_eq_ok found
    rw [List.cons_append, List.cons_append, literalBody, ih here]
    rfl
  | case4 rest last escape =>
    have plain := ne_backslash_of_literal last escape
    cases found
    rw [List.cons_append, literalBody_cons plain, if_pos rfl]
  | case5 c rest last escape other ih =>
    have plain := ne_backslash_of_literal last escape
    obtain ⟨inner, here, rfl⟩ := Except.map_eq_ok found
    rw [List.cons_append, literalBody_cons plain, if_neg other, ih here]
    rfl

namespace Numeral

/-- What is behind the sign of a numeral. -/
def unsigned (text : List Char) : List Char := if text.head? = some '-' then text.tail else text

theorem unsigned_more (filled : text ≠ []) (more : List Char) :
    unsigned (text ++ more) = unsigned text ++ more := by
  cases text with
  | nil => exact absurd rfl filled
  | cons c rest => by_cases minus : c = '-' <;> simp [unsigned, minus]

/-- The digits behind a point, if a point comes first. -/
def pointed : List Char → Option (List Char)
  | '.' :: rest => some (rest.takeWhile Char.isDigit)
  | _ => none

/-- A point and the digits behind it as they are written. -/
def writtenPointed : Option (List Char) → List Char
  | some decimals => '.' :: decimals
  | none => []

theorem pointed_more {behind : List Char}
    (left : behind.drop (writtenPointed (pointed behind)).length ≠ []) (more : List Char) :
    pointed (behind ++ more) = pointed behind := by
  cases behind with
  | nil => exact absurd List.drop_nil left
  | cons c rest =>
    by_cases point : c = '.'
    · subst point
      exact congrArg some (takeWhile_more left more)
    · simp [pointed, point]

theorem read_eq (text : List Char) :
    read text = ⟨text.head? = some '-', (unsigned text).takeWhile Char.isDigit,
      pointed ((unsigned text).drop ((unsigned text).takeWhile Char.isDigit).length)⟩ := by
  unfold read
  dsimp only
  rw [← unsigned]
  split
  · rename_i rest point
    rw [point, pointed]
  · rename_i other
    rw [pointed]
    exact other

theorem drop_written (text : List Char) :
    let whole := (unsigned text).takeWhile Char.isDigit
    let behind := (unsigned text).drop whole.length
    text.drop (read text).written.length = behind.drop (writtenPointed (pointed behind)).length := by
  intro whole behind
  have sign : ∀ count, text.drop ((if text.head? = some '-' then ['-'] else []).length + count) =
      (unsigned text).drop count := by
    intro count
    cases text with
    | nil => simp [unsigned]
    | cons c rest => by_cases minus : c = '-' <;> simp [unsigned, minus, Nat.add_comm 1]
  have written : (read text).written =
      (if text.head? = some '-' then ['-'] else []) ++ (whole ++ writtenPointed (pointed behind)) := by
    rw [read_eq, Numeral.written, List.append_assoc]
    simp only [decide_eq_true_eq]
    rfl
  rw [written, List.length_append, sign, List.length_append, List.drop_drop]

/-- A numeral that does not end with the text is the same when the text goes on. -/
theorem read_more (filled : text ≠ []) (left : text.drop (read text).written.length ≠ [])
    (more : List Char) : read (text ++ more) = read text := by
  have sign : (text ++ more).head? = text.head? := List.head?_append_of_ne_nil text filled
  rw [drop_written] at left
  have behind : (unsigned text).drop ((unsigned text).takeWhile Char.isDigit).length ≠ [] := by
    intro nothing
    rw [nothing] at left
    exact left List.drop_nil
  rw [read_eq, read_eq, sign, unsigned_more filled more, takeWhile_more behind,
    List.drop_append_of_le_length (List.takeWhile_prefix _).length_le, pointed_more left]

end Numeral

theorem startsNumeral_more (c d : Char) (rest more : List Char) :
    startsNumeral (c :: d :: (rest ++ more)) = startsNumeral (c :: d :: rest) := by
  by_cases minus : c = '-'
  · subst minus
    rfl
  · simp [startsNumeral, minus]

/-- The end of a mustache has two characters. -/
theorem count_of_read_close {count : Nat} (found : read text = (.ok .close, count)) : count = 2 := by
  unfold read at found
  split at found
  · simp at found
  · dsimp only at found
    repeat' split at found
    all_goals simp_all [ofWord_ne_close]

/-- A lexeme that something is left behind, or the end of a mustache, needs two characters at least. -/
theorem exists_two_of_read {lexeme : Lexeme} {count : Nat} (found : read text = (.ok lexeme, count))
    (left : text.drop count ≠ [] ∨ lexeme = .close) : ∃ c d rest, text = c :: d :: rest := by
  have positive := read_length_pos found
  match text with
  | [] => exact absurd rfl (ne_nil_of_read found)
  | [c] =>
    rcases left with behind | closes
    · exact absurd (List.drop_eq_nil_of_le positive) behind
    · have whole := congrArg List.length ((take_of_read found).2 closes)
      simp only [List.length_take, List.length_cons, List.length_nil] at whole
      omega
  | c :: d :: rest => exact ⟨c, d, rest, rfl⟩

/-- A lexeme that something is left behind is the same when the text goes on; so is the end of a
mustache. -/
theorem read_more {lexeme : Lexeme} {count : Nat} (found : read text = (.ok lexeme, count))
    (left : text.drop count ≠ [] ∨ lexeme = .close) (more : List Char) :
    read (text ++ more) = (.ok lexeme, count) := by
  obtain ⟨c, d, rest, rfl⟩ := exists_two_of_read found left
  have digit := startsNumeral_more c d rest more
  rw [List.cons_append, List.cons_append]
  unfold read at found ⊢
  dsimp only at found ⊢
  split at found
  · rename_i closes
    exact (if_pos closes).trans found
  rename_i closes
  refine (if_neg closes).trans ?_
  split at found
  · rename_i opens
    exact (if_pos opens).trans found
  rename_i opens
  refine (if_neg opens).trans ?_
  split at found
  · rename_i paren
    exact (if_pos paren).trans found
  rename_i paren
  refine (if_neg paren).trans ?_
  split at found
  · rename_i quotes
    refine (if_pos quotes).trans ?_
    split at found
    · rename_i body literal
      rw [show literalBody c (d :: (rest ++ more)) = .ok body from literalBody_more literal more]
      exact found
    · simp at found
  rename_i quotes
  refine (if_neg quotes).trans ?_
  split at found
  · rename_i numeral
    refine (if_pos (digit.trans numeral)).trans ?_
    obtain ⟨rfl, rfl⟩ : _ ∧ _ := by simpa using found
    have behind := left.resolve_right (by simp)
    rw [show Numeral.read (c :: d :: (rest ++ more)) = Numeral.read (c :: d :: rest) from
      Numeral.read_more (List.cons_ne_nil c (d :: rest)) behind more]
  rename_i word
  refine (if_neg (digit ▸ word)).trans ?_
  split at found
  · rename_i joined
    refine (if_pos joined).trans ?_
    have filled : (c :: d :: rest).drop ((c :: d :: rest).takeWhile isPathChar).length ≠ [] := by
      intro nothing
      rw [nothing] at found
      obtain ⟨rfl, rfl⟩ : _ ∧ _ := by simpa using found
      exact left.elim (absurd nothing) (ofWord_ne_close _)
    have taken : (c :: d :: (rest ++ more)).takeWhile isPathChar =
        (c :: d :: rest).takeWhile isPathChar := takeWhile_more filled more
    have behind : (c :: d :: (rest ++ more)).drop ((c :: d :: rest).takeWhile isPathChar).length =
        (c :: d :: rest).drop ((c :: d :: rest).takeWhile isPathChar).length ++ more :=
      List.drop_append_of_le_length (List.takeWhile_prefix _).length_le
    rw [taken, behind, List.head?_append_of_ne_nil _ filled]
    exact found
  · simp at found

end Lexeme

namespace Cursor

variable {cursor after : Cursor} {placed : Placed}

theorem left_of_lt (shorter : after.rest.length < cursor.rest.length) : cursor.rest ≠ [] :=
  List.length_pos_iff.mp (Nat.zero_lt_of_lt shorter)

theorem readLexeme_extend (found : cursor.readLexeme = (.ok placed, after))
    (left : after.rest ≠ [] ∨ placed.lexeme = .close) (more : List Char) :
    (cursor.extend more).readLexeme = (.ok placed, after.extend more) := by
  simp only [readLexeme] at found ⊢
  split at found
  · rename_i lexeme count read
    cases found
    have within : count ≤ cursor.skipGap.rest.length := by
      rcases left with behind | closes
      · exact le_of_left behind
      · obtain ⟨c, d, rest, shape⟩ := Lexeme.exists_two_of_read read (.inr closes)
        obtain rfl : lexeme = .close := closes
        obtain rfl := Lexeme.count_of_read_close read
        simp [shape]
    rw [skipGap_extend (Lexeme.ne_nil_of_read read) more]
    have again : Lexeme.read (cursor.skipGap.extend more).rest = (.ok lexeme, count) :=
      Lexeme.read_more read left more
    rw [again]
    simp only [skip_extend within more]
    rfl
  · simp at found

end Cursor

namespace Call.Reading

variable {cursor after : Cursor} {call : Call}

theorem left_of_run {reading : Reading} (found : reading.run cursor = .ok (call, after)) :
    cursor.rest ≠ [] := Cursor.left_of_lt (length_of_run found)

/-- Only the end of a mustache ends the outermost call. -/
theorem closes_of_step {reading : Reading} {placed : Placed}
    (finished : reading.step placed = .ok (.inl call)) : placed.lexeme = .close := by
  cases moves_of_step finished with
  | close idle ended => exact ended

theorem run_extend {reading : Reading} (found : reading.run cursor = .ok (call, after))
    (more : List Char) : reading.run (cursor.extend more) = .ok (call, after.extend more) := by
  fun_induction run reading cursor with
  | case1 => cases found
  | case2 => cases found
  | case3 reading cursor placed next step call' finished =>
    cases found
    exact run_of_close (Cursor.readLexeme_extend step (.inr (closes_of_step finished)) more) finished
  | case4 reading cursor placed next step reading' moved ih =>
    rw [run_of_step (Cursor.readLexeme_extend step (.inl (left_of_run found)) more) moved]
    exact ih found

/-- A call ends with braces. -/
theorem mem_of_run {reading : Reading} (found : reading.run cursor = .ok (call, after)) :
    '}' ∈ cursor.rest := by
  fun_induction run reading cursor with
  | case1 => cases found
  | case2 => cases found
  | case3 reading cursor placed next step call' finished =>
    cases found
    obtain ⟨gap, text, -, passed, -, -, closes⟩ := Cursor.passes_of_readLexeme step
    obtain rfl := closes (closes_of_step finished)
    simp [passed.rest]
  | case4 reading cursor placed next step reading' moved ih =>
    exact (Cursor.reaches_of_readLexeme step).subset (ih found)

end Call.Reading

namespace Cursor

variable {cursor after : Cursor} {call : Call}

theorem readCall_extend {start : Position} (found : cursor.readCall start = .ok (call, after))
    (more : List Char) : (cursor.extend more).readCall start = .ok (call, after.extend more) :=
  Call.Reading.run_extend found more

theorem readMustache_extend (found : cursor.readMustache = .ok (call, after)) (more : List Char) :
    (cursor.extend more).readMustache = .ok (call, after.extend more) := by
  have left : (cursor.skip 2).rest ≠ [] := Call.Reading.left_of_run found
  rw [readMustache, skip_extend_of_left left more]
  exact readCall_extend found more

theorem readPath_extend {path : Path} (found : cursor.readPath = .ok (path, after))
    (left : after.rest ≠ []) (more : List Char) :
    (cursor.extend more).readPath = .ok (path, after.extend more) := by
  rw [readPath, readLexeme_extend (readLexeme_of_readPath found) (.inl left) more]

theorem readClose_extend (found : cursor.readClose = .ok after) (more : List Char) :
    (cursor.extend more).readClose = .ok (after.extend more) := by
  obtain ⟨span, step⟩ := readLexeme_of_readClose found
  rw [readClose, readLexeme_extend step (.inr rfl) more]
  rfl

theorem mem_of_readMustache (found : cursor.readMustache = .ok (call, after)) : '}' ∈ cursor.rest :=
  (cursor.reaches_skip 2).subset (Call.Reading.mem_of_run found)

end Cursor

end LayoutMarkup
