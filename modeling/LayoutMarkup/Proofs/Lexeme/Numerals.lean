import LayoutMarkup.Proofs.Lexeme.Words

/-! Numerals read back: a numeral with digits only is one lexeme, whatever stands behind it. -/

namespace LayoutMarkup

namespace Lexeme

namespace Numeral

/-- A numeral with digits only, at least one of them before the point. -/
structure IsDecimal (numeral : Numeral) : Prop where
  filled : numeral.whole ≠ []
  whole : ∀ c ∈ numeral.whole, c.isDigit = true
  decimals : ∀ digits ∈ numeral.decimals, ∀ c ∈ digits, c.isDigit = true

variable {numeral : Numeral} {tail : List Char}

private theorem ne_minus_of_isDigit {c : Char} (digit : c.isDigit = true) : c ≠ '-' := by
  rintro rfl
  exact absurd digit (by decide)

private theorem not_isDigit_of_endsWord (ended : EndsWord tail) :
    ∀ c ∈ tail.head?, c.isDigit = false := by
  intro c first
  rw [← Bool.not_eq_true]
  intro digit
  have joined := isPathChar_of_isDigit digit
  rw [(ended c first).1] at joined
  cases joined

/-- The digits behind a point that comes first. -/
private def behindPoint : List Char → Option (List Char)
  | '.' :: rest => some (rest.takeWhile Char.isDigit)
  | _ => none

/-- The sign and the digits before the point are read before anything else is looked at. -/
private theorem read_signed (negative : Bool) {whole rest : List Char} (filled : whole ≠ [])
    (inside : ∀ c ∈ whole, c.isDigit = true) (outside : ∀ c ∈ rest.head?, c.isDigit = false) :
    Numeral.read ((if negative then ['-'] else []) ++ (whole ++ rest)) =
      ⟨negative, whole, behindPoint rest⟩ := by
  have taken := takeWhile_append_stop inside outside
  unfold Numeral.read
  cases negative with
  | true =>
    simp only [if_true, List.cons_append, List.nil_append, List.head?_cons, decide_true,
      List.tail_cons, taken, List.drop_left]
    split
    · rfl
    · rename_i other
      rw [behindPoint]
      exact other
  | false =>
    obtain ⟨c, others, shape⟩ := List.exists_cons_of_ne_nil filled
    have minus : ((whole ++ rest).head? = some '-') = False := by
      rw [shape, List.cons_append, List.head?_cons, Option.some.injEq, eq_iff_iff, iff_false]
      exact ne_minus_of_isDigit (inside c (shape ▸ List.mem_cons_self))
    simp only [Bool.false_eq_true, if_false, List.nil_append, minus, decide_false, taken,
      List.drop_left]
    split
    · rfl
    · rename_i other
      rw [behindPoint]
      exact other

/-- A text with nothing at its front that a numeral before it would take in. -/
def EndsBefore (numeral : Numeral) (tail : List Char) : Prop :=
  ∀ c ∈ tail.head?, c.isDigit = false ∧ (numeral.decimals = none → c ≠ '.')

theorem endsBefore_of_endsWord (ended : EndsWord tail) : numeral.EndsBefore tail := by
  intro c first
  refine ⟨not_isDigit_of_endsWord ended c first, ?_⟩
  rintro - rfl
  exact absurd (ended '.' first).1 (by decide)

theorem read_written_of_endsBefore (decimal : numeral.IsDecimal) (ended : numeral.EndsBefore tail) :
    Numeral.read (numeral.written ++ tail) = numeral := by
  have behind : ∀ c ∈ tail.head?, c.isDigit = false := fun c first => (ended c first).1
  obtain ⟨negative, whole, decimals⟩ := numeral
  cases decimals with
  | none =>
    have point : ∀ rest, tail ≠ '.' :: rest := by
      rintro rest rfl
      exact (ended '.' rfl).2 rfl rfl
    rw [written, List.append_nil, List.append_assoc,
      read_signed negative decimal.filled decimal.whole behind, behindPoint]
    exact point
  | some decimals =>
    have taken : (decimals ++ tail).takeWhile Char.isDigit = decimals :=
      takeWhile_append_stop (decimal.decimals decimals rfl) behind
    have outside : ∀ c ∈ ('.' :: (decimals ++ tail)).head?, c.isDigit = false := by
      rintro _ ⟨⟩
      decide
    rw [written, List.append_assoc, List.append_assoc,
      List.cons_append, read_signed negative decimal.filled decimal.whole outside, behindPoint, taken]

theorem read_written (decimal : numeral.IsDecimal) (ended : EndsWord tail) :
    Numeral.read (numeral.written ++ tail) = numeral :=
  read_written_of_endsBefore decimal (endsBefore_of_endsWord ended)

theorem startsNumeral_written (decimal : numeral.IsDecimal) (tail : List Char) :
    startsNumeral (numeral.written ++ tail) = true := by
  obtain ⟨negative, whole, decimals⟩ := numeral
  obtain ⟨c, rest, shape⟩ := List.exists_cons_of_ne_nil decimal.filled
  dsimp only at shape
  subst shape
  have digit : c.isDigit = true := decimal.whole c List.mem_cons_self
  cases negative with
  | true => simpa [written, startsNumeral] using digit
  | false => simpa [written, startsNumeral, ne_minus_of_isDigit digit] using digit

end Numeral

theorem read_of_startsNumeral {text : List Char} (starts : startsNumeral text = true) :
    read text = (.ok (.number (Numeral.read text).value), (Numeral.read text).written.length) := by
  match text with
  | [] => simp [startsNumeral] at starts
  | c :: rest =>
    have others : c ≠ '}' ∧ c ≠ '(' ∧ c ≠ ')' ∧ c ≠ '"' ∧ c ≠ '\'' := by
      refine ⟨?_, ?_, ?_, ?_, ?_⟩ <;> rintro rfl <;> simp [startsNumeral] at starts
    obtain ⟨brace, opening, closing, double, single⟩ := others
    simp [read, brace, opening, closing, double, single, starts]

theorem read_numeral_of_endsBefore {numeral : Numeral} {tail : List Char} (decimal : numeral.IsDecimal)
    (ended : numeral.EndsBefore tail) :
    read (numeral.written ++ tail) = (.ok (.number numeral.value), numeral.written.length) := by
  rw [read_of_startsNumeral (Numeral.startsNumeral_written decimal tail),
    Numeral.read_written_of_endsBefore decimal ended]

/-- A numeral is one lexeme. -/
theorem read_numeral {numeral : Numeral} {tail : List Char} (decimal : numeral.IsDecimal)
    (ended : EndsWord tail) :
    read (numeral.written ++ tail) = (.ok (.number numeral.value), numeral.written.length) :=
  read_numeral_of_endsBefore decimal (Numeral.endsBefore_of_endsWord ended)

end Lexeme

end LayoutMarkup
