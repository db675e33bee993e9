import LayoutMarkup.Proofs.Call.Demands
import LayoutMarkup.Proofs.Lexeme.Strings
import LayoutMarkup.Proofs.Source.Stretch

/-! Literal text in attribute values: where a mustache begins in it, and what the character reference
for a double quote changes about this, which is nothing. -/

namespace LayoutMarkup

open Lexeme

/-- Whether a mustache begins somewhere in a text. -/
def holdsMustache : List Char → Bool
  | [] => false
  | c :: rest => startsMustache (c :: rest) || holdsMustache rest

/-- Whether a name and the braces that end a mustache come first. -/
def startsName (text : List Char) : Bool :=
  decide (IsName (text.takeWhile isPathChar)) &&
    ['}', '}'].isPrefixOf (text.drop (text.takeWhile isPathChar).length)

/-- Whether every mustache that begins in a text is only a name. -/
def holdsNames : List Char → Bool
  | [] => true
  | c :: rest => (!startsMustache (c :: rest) || startsName rest.tail) && holdsNames rest

theorem startsMustache_iff {text : List Char} :
    startsMustache text = true ↔ ∃ rest, text = '{' :: '{' :: rest := by
  rw [startsMustache, List.isPrefixOf_iff_prefix]
  constructor
  · rintro ⟨rest, rfl⟩
    exact ⟨rest, rfl⟩
  · rintro ⟨rest, rfl⟩
    exact ⟨rest, rfl⟩

theorem startsMustache_cons (c : Char) (rest : List Char) :
    startsMustache (c :: rest) = (c = '{' && rest.head? = some '{') := by
  rw [Bool.eq_iff_iff, startsMustache_iff]
  cases rest <;> simp

theorem startsMustache_of_suffix {text rest : List Char} (plain : holdsMustache text = false)
    (suffix : rest <:+ text) : startsMustache rest = false := by
  induction text with
  | nil =>
    rw [List.suffix_nil.mp suffix]
    rfl
  | cons c text ih =>
    simp only [holdsMustache, Bool.or_eq_false_iff] at plain
    rcases List.suffix_cons_iff.mp suffix with rfl | shorter
    · exact plain.1
    · exact ih plain.2 shorter

theorem holdsMustache_of_suffixes {text : List Char}
    (plain : ∀ rest, rest <:+ text → rest ≠ [] → startsMustache rest = false) :
    holdsMustache text = false := by
  induction text with
  | nil => rfl
  | cons c text ih =>
    simp only [holdsMustache, Bool.or_eq_false_iff]
    refine ⟨plain _ List.suffix_rfl (by simp), ?_⟩
    exact ih fun rest suffix => plain rest (suffix.trans (List.suffix_cons c text))

/-- Only the first character behind a text can complete a mustache that begins in it. -/
theorem startsMustache_append {text : List Char} (filled : text ≠ []) (d : Char) (tail : List Char) :
    startsMustache (text ++ d :: tail) = startsMustache (text ++ [d]) := by
  match text with
  | [] => exact absurd rfl filled
  | [c] => simp [startsMustache_cons]
  | c :: e :: text => simp [startsMustache_cons]

theorem literalStretch_append {quote d : Char} {text tail : List Char} (unquoted : quote ∉ text)
    (plain : holdsMustache (text ++ [d]) = false)
    (ended : d = quote ∨ startsMustache (d :: tail) = true) :
    literalStretch quote (text ++ d :: tail) = text := by
  rw [literalStretch_eq_stretch]
  apply stretch_append
  · intro rest suffix filled
    have outside : (rest ++ d :: tail).head? ≠ some quote := by
      obtain ⟨c, others, rfl⟩ := List.exists_cons_of_ne_nil filled
      rintro ⟨⟩
      exact unquoted (suffix.mem List.mem_cons_self)
    have lookahead := startsMustache_append filled d tail
    rw [startsMustache_of_suffix plain (List.suffix_append_self_iff.mpr suffix)] at lookahead
    simp only [lookahead, Bool.or_false, decide_eq_false_iff_not]
    exact outside
  · rcases ended with rfl | opens
    · simp
    · simp [opens]

/-- What stands before the quote or the mustache that ends a stretch of literal text. -/
theorem literalStretch_spec (quote : Char) (text : List Char) :
    ∃ tail, text = literalStretch quote text ++ tail ∧ quote ∉ literalStretch quote text ∧
      holdsMustache (literalStretch quote text ++ tail.take 1) = false ∧
      (tail = [] ∨ tail.head? = some quote ∨ startsMustache tail = true) := by
  rw [literalStretch_eq_stretch]
  obtain ⟨tail, shape, ended, inside⟩ :=
    stretch_spec (fun rest => rest.head? = some quote || startsMustache rest) text
  refine ⟨tail, shape, ?_, ?_, by simpa using ended⟩
  · intro member
    obtain ⟨before, behind, split⟩ := List.append_of_mem member
    have stopped := inside (quote :: behind) (split ▸ List.suffix_append _ _) (by simp)
    simp at stopped
  · apply holdsMustache_of_suffixes
    intro last suffix filled
    cases tail with
    | nil =>
      have stopped := inside last (by simpa using suffix) filled
      simp only [List.append_nil, Bool.or_eq_false_iff] at stopped
      exact stopped.2
    | cons d rest =>
      rcases List.suffix_concat_iff.mp suffix with none | ⟨front, rfl, within⟩
      · exact absurd none filled
      · by_cases nothing : front = []
        · subst nothing
          simp [startsMustache_cons]
        · have stopped := inside front within nothing
          rw [Bool.or_eq_false_iff, startsMustache_append nothing] at stopped
          exact stopped.2

theorem holdsMustache_of_start {text whole : List Char} (plain : holdsMustache whole = false)
    (front : text <+: whole) : holdsMustache text = false := by
  obtain ⟨behind, rfl⟩ := front
  apply holdsMustache_of_suffixes
  intro rest suffix filled
  have longer := startsMustache_of_suffix plain (List.suffix_append_self_iff.mpr suffix)
  rw [← Bool.not_eq_true] at longer ⊢
  intro opens
  apply longer
  obtain ⟨others, rfl⟩ := startsMustache_iff.mp opens
  exact startsMustache_iff.mpr ⟨others ++ behind, rfl⟩

theorem not_mem_escapeQuotes (text : List Char) : '"' ∉ escapeQuotes text := by
  intro member
  obtain ⟨c, -, written⟩ := List.mem_flatMap.mp member
  split at written
  · exact absurd written (by decide)
  · rename_i other
    exact other (List.mem_singleton.mp written).symm

theorem escapeQuotes_of_not_mem {text : List Char} (unquoted : '"' ∉ text) :
    escapeQuotes text = text := by
  apply flatMap_eq_self
  intro c member
  rw [if_neg]
  rintro rfl
  exact unquoted member

theorem head?_escapeQuotes_append (text tail : List Char) :
    (escapeQuotes text ++ tail).head? = some '{' ↔ (text ++ tail).head? = some '{' := by
  cases text with
  | nil => rfl
  | cons c rest =>
    by_cases quote : c = '"'
    · subst quote
      simp [escapeQuotes]
    · simp [escapeQuotes, quote]

/-- A character reference neither begins a mustache nor ends one that begins before it. -/
theorem holdsMustache_escapeQuotes (text tail : List Char) :
    holdsMustache (escapeQuotes text ++ tail) = holdsMustache (text ++ tail) := by
  induction text with
  | nil => rfl
  | cons c text ih =>
    by_cases quote : c = '"'
    · subst quote
      simp only [escapeQuotes, List.flatMap_cons, if_true, List.cons_append, List.nil_append,
        holdsMustache, startsMustache_cons] at ih ⊢
      rw [← ih]
      simp
    · have same := head?_escapeQuotes_append text tail
      simp only [escapeQuotes, List.flatMap_cons, quote, if_false, List.cons_append, List.nil_append,
        holdsMustache, startsMustache_cons] at ih same ⊢
      rw [ih]
      congr 2
      exact decide_eq_decide.mpr same

theorem holdsMustache_concat {d : Char} (other : d ≠ '{') (text : List Char) :
    holdsMustache (text ++ [d]) = holdsMustache text := by
  induction text with
  | nil => simp [holdsMustache, startsMustache_cons]
  | cons c text ih =>
    rw [List.cons_append, holdsMustache, holdsMustache, ih, startsMustache_cons, startsMustache_cons]
    cases text <;> simp [other]

theorem escapeQuotes_eq_nil {text : List Char} : escapeQuotes text = [] ↔ text = [] := by
  cases text with
  | nil => simp [escapeQuotes]
  | cons c rest =>
    by_cases quote : c = '"'
    · simp [escapeQuotes, quote]
    · simp [escapeQuotes, quote]

theorem holdsNames_of_plain {text : List Char} (plain : holdsMustache text = false) :
    holdsNames text = true := by
  induction text with
  | nil => rfl
  | cons c text ih =>
    simp only [holdsMustache, Bool.or_eq_false_iff] at plain
    simp [holdsNames, plain.1, ih plain.2]

theorem holdsNames_of_suffix {text rest : List Char} (names : holdsNames text = true)
    (suffix : rest <:+ text) : holdsNames rest = true := by
  induction text with
  | nil =>
    rw [List.suffix_nil.mp suffix]
    rfl
  | cons c text ih =>
    rcases List.suffix_cons_iff.mp suffix with rfl | shorter
    · exact names
    · simp only [holdsNames, Bool.and_eq_true] at names
      exact ih names.2 shorter

theorem takeWhile_escapeQuotes (text : List Char) :
    (escapeQuotes text).takeWhile isPathChar = text.takeWhile isPathChar := by
  induction text with
  | nil => rfl
  | cons c text ih =>
    by_cases quote : c = '"'
    · subst quote
      have outside : isPathChar '"' = false ∧ isPathChar '&' = false := by decide
      simp [escapeQuotes, outside]
    · by_cases joined : isPathChar c = true
      · simp only [escapeQuotes] at ih
        simp [escapeQuotes, quote, joined, ih]
      · simp [escapeQuotes, quote, joined]

theorem startsName_escapeQuotes (text : List Char) :
    startsName (escapeQuotes text) = startsName text := by
  have split := List.takeWhile_append_dropWhile (p := isPathChar) (l := text)
  have word : '"' ∉ text.takeWhile isPathChar := fun member =>
    absurd (List.mem_takeWhile_imp member) (by decide)
  have shape : escapeQuotes text =
      text.takeWhile isPathChar ++ escapeQuotes (text.dropWhile isPathChar) := by
    calc
      escapeQuotes text
          = escapeQuotes (text.takeWhile isPathChar ++ text.dropWhile isPathChar) := by rw [split]
      _ = escapeQuotes (text.takeWhile isPathChar) ++ escapeQuotes (text.dropWhile isPathChar) :=
        List.flatMap_append
      _ = _ := by rw [escapeQuotes_of_not_mem word]
  have left : text.drop (text.takeWhile isPathChar).length = text.dropWhile isPathChar :=
    List.append_cancel_left
      ((List.prefix_iff_eq_append.mp (List.takeWhile_prefix isPathChar)).trans split.symm)
  have braces : ∀ rest, ['}', '}'].isPrefixOf (escapeQuotes rest) = ['}', '}'].isPrefixOf rest := by
    intro rest
    cases rest with
    | nil => rfl
    | cons c rest =>
      by_cases quote : c = '"'
      · simp [escapeQuotes, quote, List.isPrefixOf]
      · cases rest with
        | nil => simp [escapeQuotes, quote]
        | cons d rest =>
          by_cases second : d = '"'
          · simp [escapeQuotes, quote, second, List.isPrefixOf]
          · simp [escapeQuotes, quote, second, List.isPrefixOf]
  simp only [startsName, takeWhile_escapeQuotes, left]
  rw [shape, List.drop_left, braces]

/-- Character references change nothing about the mustaches in a text. -/
theorem holdsNames_escapeQuotes (text : List Char) :
    holdsNames (escapeQuotes text) = holdsNames text := by
  induction text with
  | nil => rfl
  | cons c text ih =>
    by_cases quote : c = '"'
    · subst quote
      simp only [escapeQuotes, List.flatMap_cons, if_true, List.cons_append, List.nil_append,
        holdsNames, startsMustache_cons] at ih ⊢
      simp [ih]
    · have same := head?_escapeQuotes_append text []
      rw [List.append_nil, List.append_nil] at same
      have whole : escapeQuotes (c :: text) = c :: escapeQuotes text := by
        simp [escapeQuotes, quote]
      rw [whole, holdsNames, holdsNames, ih, startsMustache_cons, startsMustache_cons]
      congr 1
      by_cases opens : text.head? = some '{'
      · obtain ⟨rest, rfl⟩ := List.head?_eq_some_iff.mp opens
        have behind : (escapeQuotes ('{' :: rest)).tail = escapeQuotes rest := by
          simp [escapeQuotes]
        rw [behind, startsName_escapeQuotes, List.tail_cons]
        simp [same.mpr opens]
      · simp [opens, mt same.mp opens]

end LayoutMarkup
