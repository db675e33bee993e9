import LayoutMarkup.Proofs.Lexeme.Words

/-! Quoted texts read back. A quoted text is always one lexeme. Its characters come back as they were
but for those that are written as a letter or a code behind a backslash: only the backslash is
dropped from these, so that a text with any of them is written shorter the next time. -/

namespace LayoutMarkup

theorem flatMap_eq_self {text : List Char} {change : Char → List Char}
    (kept : ∀ c ∈ text, change c = [c]) : text.flatMap change = text := by
  induction text with
  | nil => rfl
  | cons c text ih =>
    rw [List.flatMap_cons, kept c List.mem_cons_self,
      ih fun d member => kept d (List.mem_cons_of_mem c member)]
    rfl

namespace Quoted

/-- What is read from the written form of a character. -/
def reread (c : Char) : List Char := Lexeme.unescape (escape '"' c)

/-- Whether a character is written as itself, with at most a backslash before it. -/
def IsPlain (c : Char) : Prop := escape '"' c = [c] ∨ c = '"' ∨ c = '\\'

instance (c : Char) : Decidable (IsPlain c) :=
  inferInstanceAs (Decidable (escape '"' c = [c] ∨ c = '"' ∨ c = '\\'))

theorem exists_digitChar_of_mem_toDigits {base number : Nat} {c : Char} (positive : 1 < base)
    (member : c ∈ Nat.toDigits base number) : ∃ digit < base, c = digit.digitChar := by
  induction number using Nat.strongRecOn with
  | ind number ih =>
    rw [Nat.toDigits_eq_if positive] at member
    split at member
    · exact ⟨number, ‹_›, by simpa using member⟩
    · rename_i large
      rcases List.mem_append.mp member with front | last
      · exact ih _ (Nat.div_lt_self (by omega) positive) front
      · exact ⟨number % base, Nat.mod_lt _ (by omega), by simpa using last⟩

/-- The code of a character stands between braces as it is. -/
theorem escape_of_mem_toDigits {number : Nat} {c : Char} (member : c ∈ Nat.toDigits 16 number) :
    escape '"' c = [c] ∧ c ≠ '\\' ∧ c ≠ '"' := by
  obtain ⟨digit, bound, rfl⟩ := exists_digitChar_of_mem_toDigits (by decide) member
  have all : ∀ digit < 16, escape '"' (Nat.digitChar digit) = [Nat.digitChar digit] ∧
      Nat.digitChar digit ≠ '\\' ∧ Nat.digitChar digit ≠ '"' := by decide +kernel
  exact all digit bound

/-- The four ways in which a character is written. -/
theorem escape_cases (c : Char) :
    (escape '"' c = [c] ∧ c ≠ '\\' ∧ c ≠ '"') ∨
    (∃ sign, escape '"' c = ['\\', sign] ∧ sign ≠ '\\' ∧ escape '"' sign = [sign] ∧ c ≠ '\\' ∧
      c ≠ '"') ∨
    (escape '"' c = ['\\', c] ∧ (c = '"' ∨ c = '\\')) ∨
    (escape '"' c = codeEscape c ∧ c ≠ '\\' ∧ c ≠ '"') := by
  unfold escape
  split
  · subst c
    exact .inr (.inl ⟨'0', by decide +kernel⟩)
  split
  · subst c
    exact .inr (.inl ⟨'t', by decide +kernel⟩)
  split
  · subst c
    exact .inr (.inl ⟨'r', by decide +kernel⟩)
  split
  · subst c
    exact .inr (.inl ⟨'n', by decide +kernel⟩)
  split
  · rename_i special
    simp only [Bool.or_eq_true, decide_eq_true_eq] at special
    exact .inr (.inr (.inl ⟨rfl, special.symm⟩))
  rename_i ordinary
  simp only [Bool.or_eq_true, decide_eq_true_eq, not_or] at ordinary
  split
  · exact .inr (.inr (.inr ⟨rfl, ordinary⟩))
  · exact .inl ⟨rfl, ordinary⟩

end Quoted

namespace Lexeme

open Quoted

/-- Text without backslashes and quotes is part of a literal as it stands. -/
theorem literalBody_append {text : List Char} (rest : List Char)
    (ordinary : ∀ c ∈ text, c ≠ '\\' ∧ c ≠ '"') :
    literalBody '"' (text ++ rest) = (literalBody '"' rest).map (text ++ ·) := by
  induction text with
  | nil =>
    rw [List.nil_append]
    cases literalBody '"' rest <;> rfl
  | cons c text ih =>
    obtain ⟨backslash, quote⟩ := ordinary c List.mem_cons_self
    have inner := ih fun d member => ordinary d (List.mem_cons_of_mem c member)
    rw [List.cons_append, literalBody]
    · rw [if_neg quote, inner]
      cases literalBody '"' rest <;> rfl
    · simp [backslash]
    · simp [backslash]

theorem unescape_append {text : List Char} (rest : List Char) (ordinary : '\\' ∉ text) :
    unescape (text ++ rest) = text ++ unescape rest := by
  induction text with
  | nil => rfl
  | cons c text ih =>
    have backslash : c ≠ '\\' := fun equal => ordinary (equal ▸ List.mem_cons_self)
    have inner := ih fun member => ordinary (List.mem_cons_of_mem c member)
    rw [List.cons_append, unescape]
    · rw [inner]
      rfl
    · simp [backslash]

/-- A code escape is a backslash before characters without a meaning of their own. -/
theorem codeEscape_ordinary (c : Char) :
    ∀ d ∈ '{' :: (Nat.toDigits 16 c.toNat ++ ['}']), escape '"' d = [d] ∧ d ≠ '\\' ∧ d ≠ '"' := by
  intro d member
  simp only [List.mem_cons, List.mem_append, List.not_mem_nil, or_false] at member
  rcases member with rfl | digit | rfl
  · decide +kernel
  · exact escape_of_mem_toDigits digit
  · decide +kernel

theorem codeEscape_eq (c : Char) :
    codeEscape c = '\\' :: 'u' :: ('{' :: (Nat.toDigits 16 c.toNat ++ ['}'])) := by
  simp [codeEscape]

theorem literalBody_escaped (c : Char) (rest : List Char) :
    literalBody '"' ('\\' :: c :: rest) = (literalBody '"' rest).map (['\\', c] ++ ·) := by
  simp [literalBody]

theorem literalBody_escape (c : Char) (rest : List Char) :
    literalBody '"' (escape '"' c ++ rest) = (literalBody '"' rest).map (escape '"' c ++ ·) := by
  rcases escape_cases c with ⟨form, ordinary⟩ | ⟨sign, form, -⟩ | ⟨form, -⟩ | ⟨form, -⟩
  · rw [form]
    exact literalBody_append rest (by simpa using ordinary)
  · rw [form]
    exact literalBody_escaped sign rest
  · rw [form]
    exact literalBody_escaped c rest
  · rw [form, codeEscape_eq, List.cons_append, List.cons_append, literalBody_escaped,
      literalBody_append rest fun d member => (codeEscape_ordinary c d member).2]
    cases literalBody '"' rest <;> simp [Except.map]

theorem literalBody_quoted (chars rest : List Char) :
    literalBody '"' (chars.flatMap (escape '"') ++ '"' :: rest) =
      .ok (chars.flatMap (escape '"')) := by
  induction chars with
  | nil => simp [literalBody]
  | cons c chars ih =>
    rw [List.flatMap_cons, List.append_assoc, literalBody_escape, ih]
    rfl

theorem unescape_escape_append (c : Char) (rest : List Char) :
    unescape (escape '"' c ++ rest) = reread c ++ unescape rest := by
  unfold reread
  rcases escape_cases c with ⟨form, ordinary⟩ | ⟨sign, form, -⟩ | ⟨form, -⟩ | ⟨form, -⟩
  · have single : '\\' ∉ [c] := by simpa using ordinary.1.symm
    have alone := unescape_append [] single
    rw [form, unescape_append rest single, ← List.append_nil [c], alone]
    simp [unescape]
  · simp [form, unescape]
  · simp [form, unescape]
  · have inner : '\\' ∉ '{' :: (Nat.toDigits 16 c.toNat ++ ['}']) := fun member =>
      (codeEscape_ordinary c _ member).2.1 rfl
    have alone := unescape_append [] inner
    rw [List.append_nil] at alone
    rw [form, codeEscape_eq, List.cons_append, List.cons_append, unescape, unescape,
      unescape_append rest inner, alone]
    simp [unescape]

theorem unescape_quoted (chars : List Char) :
    unescape (chars.flatMap (escape '"')) = chars.flatMap reread := by
  induction chars with
  | nil => rfl
  | cons c chars ih => rw [List.flatMap_cons, unescape_escape_append, ih, List.flatMap_cons]

/-- A quoted text is one lexeme, whatever stands behind it. -/
theorem read_quoted (chars tail : List Char) :
    read (Quoted.text chars ++ tail) =
      (.ok (.string (String.ofList (chars.flatMap reread))), (Quoted.text chars).length) := by
  have body := literalBody_quoted chars tail
  have shape : Quoted.text chars ++ tail = '"' :: (chars.flatMap (escape '"') ++ '"' :: tail) := by
    simp [Quoted.text]
  rw [shape]
  simp [read, body, unescape_quoted, Quoted.text]

end Lexeme

namespace Quoted

theorem reread_of_isPlain {c : Char} (plain : IsPlain c) : reread c = [c] := by
  unfold reread
  rcases plain with form | rfl | rfl
  · rw [form]
    by_cases backslash : c = '\\'
    · subst backslash
      exact absurd form (by decide)
    · simp [Lexeme.unescape]
  · decide
  · decide

/-- What is not written as itself loses the backslash before it. -/
theorem length_escape_of_not_isPlain {c : Char} (other : ¬ IsPlain c) :
    (escape '"' c).length = ((reread c).flatMap (escape '"')).length + 1 := by
  unfold reread
  rcases escape_cases c with ⟨form, -⟩ | ⟨sign, form, -, kept, -⟩ | ⟨-, special⟩ | ⟨form, -⟩
  · exact absurd (.inl form) other
  · simp [form, Lexeme.unescape, kept]
  · exact absurd (.inr special) other
  · have inner := Lexeme.codeEscape_ordinary c
    have written : ('{' :: (Nat.toDigits 16 c.toNat ++ ['}'])).flatMap (escape '"') =
        '{' :: (Nat.toDigits 16 c.toNat ++ ['}']) :=
      flatMap_eq_self fun d member => (inner d member).1
    have text := Lexeme.unescape_append [] fun member => (inner _ member).2.1 rfl
    have letter : escape '"' 'u' = ['u'] := by decide +kernel
    rw [List.append_nil] at text
    rw [form, Lexeme.codeEscape_eq, Lexeme.unescape, text]
    simp only [Lexeme.unescape, List.append_nil, List.flatMap_cons, letter, written]
    simp

end Quoted

end LayoutMarkup
