import LayoutMarkup.Layout.ProjectFile
import LayoutMarkup.Layout.Token
import Mathlib.Data.Nat.Digits.Defs

/-! The grammar of breakpoint tokens. Numbers are read into words of a fixed size, and one that does
not fit is replaced by the nearest that does; as no number of columns is as large as that, a token is
still classified by the integer that it spells, however long it is. -/

namespace LayoutMarkup

/-- A run of decimal digits, of any length. -/
structure IsNumeral (digits : List Char) : Prop where
  filled : digits ≠ []
  decimal : ∀ digit ∈ digits, digit.isDigit = true

/-- The natural number that decimal digits denote, the last of them counting ones. -/
def numeralValue (digits : List Char) : Nat :=
  Nat.ofDigits 10 (digits.reverse.map fun digit => digit.toNat - '0'.toNat)

/-- A word spells an integer by digits behind at most one sign. -/
inductive Spells : List Char → Int → Prop where
  | plain {digits : List Char} (numeral : IsNumeral digits) : Spells digits (numeralValue digits)
  | plus {digits : List Char} (numeral : IsNumeral digits) :
      Spells ('+' :: digits) (numeralValue digits)
  | minus {digits : List Char} (numeral : IsNumeral digits) :
      Spells ('-' :: digits) (-numeralValue digits)

theorem digitsValue_eq (digits : List Char) : digitsValue digits = numeralValue digits := by
  rw [numeralValue, Nat.ofDigits_eq_foldr, List.foldr_map, List.foldr_reverse, digitsValue]
  congr 1
  funext value digit
  exact Nat.add_comm _ _

section

variable {word digits : List Char} {number : Int}

theorem isNumeral_iff : IsNumeral digits ↔ (digits.isEmpty || !digits.all Char.isDigit) = false := by
  simp only [Bool.or_eq_false_iff, List.isEmpty_eq_false_iff, Bool.not_eq_false', List.all_eq_true]
  exact ⟨fun ⟨filled, decimal⟩ => ⟨filled, decimal⟩, fun ⟨filled, decimal⟩ => ⟨filled, decimal⟩⟩

/-- A sign is no digit, so that a numeral shows none. -/
theorem IsNumeral.head (numeral : IsNumeral digits) :
    digits.head? ≠ some '-' ∧ digits.head? ≠ some '+' := by
  constructor <;>
  · intro first
    have decimal := numeral.decimal _ (List.mem_of_mem_head? first)
    exact absurd decimal (by decide)

/-- A word that spells an integer is read as the word nearest to this. -/
theorem integer?_of_spells (spelled : Spells word number) :
    integer? word = some (clampToWord number) := by
  cases spelled with
  | plain numeral =>
    simp [integer?, numeral.head, isNumeral_iff.mp numeral, digitsValue_eq]
  | plus numeral => simp [integer?, isNumeral_iff.mp numeral, digitsValue_eq]
  | minus numeral => simp [integer?, isNumeral_iff.mp numeral, digitsValue_eq]

/-- What is read as an integer spells one. -/
theorem exists_spells_of_integer? {value : Int} (read : integer? word = some value) :
    ∃ number, Spells word number := by
  unfold integer? at read
  extract_lets digits size at read
  have fits : (digits.isEmpty || !digits.all Char.isDigit) = false := by
    by_contra other
    rw [if_pos (Bool.eq_true_of_not_eq_false other)] at read
    cases read
  have numeral := isNumeral_iff.mpr fits
  by_cases signed : (word.head? = some '-' || word.head? = some '+') = true
  · have stripped : digits = word.tail := if_pos signed
    rw [stripped] at numeral
    simp only [Bool.or_eq_true, decide_eq_true_eq, List.head?_eq_some_iff] at signed
    rcases signed with ⟨rest, rfl⟩ | ⟨rest, rfl⟩
    · exact ⟨_, .minus numeral⟩
    · exact ⟨_, .plus numeral⟩
  · have whole : digits = word := if_neg signed
    exact ⟨_, .plain (whole ▸ numeral)⟩

theorem integer?_eq_none_iff : integer? word = none ↔ ∀ number, ¬ Spells word number := by
  constructor
  · intro unread number spelled
    rw [integer?_of_spells spelled] at unread
    cases unread
  · intro unspelled
    cases read : integer? word with
    | none => rfl
    | some value =>
      obtain ⟨number, spelled⟩ := exists_spells_of_integer? read
      exact absurd spelled (unspelled number)

theorem toCount?_eq_some_iff {value : Int} {count : Nat} :
    toCount? value = some count ↔ value = count ∧ count ≤ largestCount := by
  unfold toCount?
  split
  · simp only [Option.some.injEq]
    omega
  · simp only [reduceCtorEq, false_iff]
    omega

/-- Holding an integer within a signed word makes no count of it and spoils none. -/
theorem toCount?_clampToWord (number : Int) : toCount? (clampToWord number) = toCount? number := by
  have low : wordLow < 0 := by decide
  have high : (largestCount : Int) < wordHigh := by decide
  apply Option.ext
  intro count
  rw [toCount?_eq_some_iff, toCount?_eq_some_iff]
  unfold clampToWord
  omega

/-- A test that only counts pass can be made of the integer itself. -/
theorem filter_toCount? {keep : Nat → Bool} (bounded : ∀ count, keep count = true → count ≤ largestCount)
    (number : Int) :
    (toCount? (clampToWord number)).filter keep =
      if 0 ≤ number ∧ keep number.toNat = true then some number.toNat else none := by
  apply Option.ext
  intro count
  rw [toCount?_clampToWord, Option.filter_eq_some_iff, toCount?_eq_some_iff]
  constructor
  · rintro ⟨⟨rfl, -⟩, kept⟩
    rw [if_pos ⟨Int.natCast_nonneg count, kept⟩, Int.toNat_natCast]
  · intro found
    split at found
    · rename_i passed
      obtain ⟨least, kept⟩ := passed
      obtain rfl := Option.some.inj found
      exact ⟨⟨(Int.toNat_of_nonneg least).symm, bounded _ kept⟩, kept⟩
    · cases found

end

namespace ProjectFile

theorem le_of_count? {value : Json.Value} {count : Nat} (read : count? value = some count) :
    count ≤ largestCount := by
  unfold count? at read
  split at read
  · dsimp only at read
    split at read
    · rename_i fits
      obtain rfl := Option.some.inj read
      exact fits
    · cases read
  · cases read

/-- A project file cannot ask for more columns than can be counted. -/
theorem columns_le_of_read {source : String} {project : Project} (found : read source = some project) :
    (Settings.ofProject project).columns ≤ largestCount := by
  obtain ⟨value, -, made⟩ := Option.bind_eq_some_iff.mp found
  simp only [project?, Option.bind_eq_bind] at made
  obtain ⟨fields, -, made⟩ := Option.bind_eq_some_iff.mp made
  split at made
  · rename_i given _ _
    simp only [Option.bind_eq_some_iff, Option.pure_def, Option.some.injEq] at made
    obtain ⟨-, -, -, -, -, -, -, -, columns, counted, -, -, -, -, rfl⟩ := made
    show columns.getD 0 ≤ largestCount
    cases columns with
    | none => exact Nat.zero_le _
    | some count =>
      cases given with
      | none => cases counted
      | some value =>
        simp only [field, optional] at counted
        split at counted
        · cases counted
        · obtain ⟨own, read, same⟩ := Option.map_eq_some_iff.mp counted
          obtain rfl := Option.some.inj same
          exact le_of_count? read
  · cases made

end ProjectFile

namespace Settings

/-- The values of the complex responder that comes first under a name. -/
def FirstValues (settings : Settings) (name : String) (values : List String) : Prop :=
  ∃ before later, settings.responders = before ++ .complex name values :: later ∧
    ∀ others, .complex name others ∉ before

/-- What becomes of a token. An integer is a number of columns; any other token with an equals sign
sets a complex responder to a value; any other is a simple responder if there is one of this name, and
else it has to be an offset. -/
inductive Classifies (settings : Settings) (breakpoint : Breakpoint) (token : List Char) :
    Except Refusal ClassEntry → Prop where
  | column {number : Int} (spelled : Spells token number)
      (inside : 1 ≤ number ∧ number ≤ settings.columns) :
      Classifies settings breakpoint token (.ok ⟨.column,
        settings.classNames.column breakpoint number.toNat settings.columnPrefix settings.columns⟩)
  | columnOutside {number : Int} (spelled : Spells token number)
      (outside : ¬ (1 ≤ number ∧ number ≤ settings.columns)) :
      Classifies settings breakpoint token
        (.error (.columns (clampToWord number) breakpoint.short settings.columns))
  | value {name value : List Char} {values : List String} (word : ∀ number, ¬ Spells token number)
      (split : token = name ++ '=' :: value) (first : '=' ∉ name)
      (known : settings.FirstValues (String.ofList name) values)
      (allowed : String.ofList value ∈ values) :
      Classifies settings breakpoint token (.ok ⟨.responder,
        settings.classNames.responder breakpoint (String.ofList name) (some (String.ofList value))⟩)
  | valueNotAllowed {name value : List Char} {values : List String}
      (word : ∀ number, ¬ Spells token number)
      (split : token = name ++ '=' :: value) (first : '=' ∉ name)
      (known : settings.FirstValues (String.ofList name) values)
      (refused : String.ofList value ∉ values) :
      Classifies settings breakpoint token (.error (.attributeValue
        (breakpoint.short ++ ":" ++ String.ofList name) (String.ofList value)))
  | nameUnknown {name value : List Char} (word : ∀ number, ¬ Spells token number)
      (split : token = name ++ '=' :: value) (first : '=' ∉ name)
      (unknown : ∀ values, .complex (String.ofList name) values ∉ settings.responders) :
      Classifies settings breakpoint token (.error (.token (String.ofList token) breakpoint.short))
  | responder (word : ∀ number, ¬ Spells token number) (plain : '=' ∉ token)
      (known : .simple (String.ofList token) ∈ settings.responders) :
      Classifies settings breakpoint token (.ok ⟨.responder,
        settings.classNames.responder breakpoint (String.ofList token) none⟩)
  | offset {digits : List Char} {number : Int} (word : ∀ number, ¬ Spells token number)
      (plain : '=' ∉ token) (unknown : .simple (String.ofList token) ∉ settings.responders)
      (lead : token = "offset-".toList ++ digits) (spelled : Spells digits number)
      (inside : 0 ≤ number ∧ number < settings.columns) :
      Classifies settings breakpoint token (.ok ⟨.offset,
        settings.classNames.offset breakpoint number.toNat settings.columnPrefix settings.columns⟩)
  | offsetOutside {digits : List Char} {number : Int} (word : ∀ number, ¬ Spells token number)
      (plain : '=' ∉ token) (unknown : .simple (String.ofList token) ∉ settings.responders)
      (lead : token = "offset-".toList ++ digits) (spelled : Spells digits number)
      (outside : ¬ (0 ≤ number ∧ number < settings.columns)) :
      Classifies settings breakpoint token
        (.error (.offset (clampToWord number) breakpoint.short settings.columns))
  | other (word : ∀ number, ¬ Spells token number) (plain : '=' ∉ token)
      (unknown : .simple (String.ofList token) ∉ settings.responders)
      (noOffset : ∀ digits number, token = "offset-".toList ++ digits → ¬ Spells digits number) :
      Classifies settings breakpoint token (.error (.token (String.ofList token) breakpoint.short))

variable {settings : Settings} {breakpoint : Breakpoint} {token : List Char}

theorem complexResponder?_of_first {name : String} {values : List String}
    (known : settings.FirstValues name values) :
    settings.complexResponder? name = some (.complex name values) := by
  obtain ⟨before, later, shape, fresh⟩ := known
  refine List.find?_eq_some_iff_append.mpr ⟨decide_eq_true rfl, before, later, shape, ?_⟩
  intro term member
  cases term with
  | simple own => rfl
  | complex own others =>
    have other : own ≠ name := by
      rintro rfl
      exact fresh others member
    simpa using other

theorem exists_first_of_complexResponder? {name : String} {term : Term}
    (found : settings.complexResponder? name = some term) :
    ∃ values, term = .complex name values ∧ settings.FirstValues name values := by
  obtain ⟨fits, before, later, shape, skipped⟩ := List.find?_eq_some_iff_append.mp found
  cases term with
  | simple own => cases fits
  | complex own values =>
    obtain rfl := of_decide_eq_true fits
    refine ⟨values, rfl, before, later, shape, ?_⟩
    intro others member
    have kept := skipped _ member
    simp at kept

theorem complexResponder?_eq_none_iff {name : String} :
    settings.complexResponder? name = none ↔ ∀ values, .complex name values ∉ settings.responders := by
  rw [complexResponder?, List.find?_eq_none]
  constructor
  · intro absent values member
    exact absent _ member (decide_eq_true rfl)
  · intro absent term member found
    cases term with
    | simple own => cases found
    | complex own values =>
      obtain rfl := of_decide_eq_true found
      exact absent values member

theorem simpleResponder?_isSome_iff {name : String} :
    (settings.simpleResponder? name).isSome = true ↔ .simple name ∈ settings.responders := by
  rw [simpleResponder?, List.find?_isSome]
  constructor
  · intro ⟨term, member, found⟩
    cases term with
    | simple own =>
      obtain rfl := of_decide_eq_true found
      exact member
    | complex own values => cases found
  · intro member
    exact ⟨_, member, decide_eq_true rfl⟩

/-- A token is cut at its first equals sign. -/
theorem cut_of_split {name value : List Char} (split : token = name ++ '=' :: value)
    (first : '=' ∉ name) :
    token.takeWhile (· ≠ '=') = name ∧ token.drop (name.length + 1) = value := by
  subst split
  have inside : ∀ c ∈ name, decide (c ≠ '=') = true := by
    intro c member
    exact decide_eq_true fun same => first (same ▸ member)
  rw [List.takeWhile_append_of_pos inside]
  simp

section

variable (bounded : settings.columns ≤ largestCount) (number : Int)

include bounded

theorem columnClass_clampToWord (breakpoint : Breakpoint) :
    settings.columnClass breakpoint (clampToWord number) =
      if 1 ≤ number ∧ number ≤ settings.columns then
        .ok ⟨.column, settings.classNames.column breakpoint number.toNat settings.columnPrefix
          settings.columns⟩
      else .error (.columns (clampToWord number) breakpoint.short settings.columns) := by
  have read : ((toCount? (clampToWord number)).filter fun count =>
      1 ≤ count && count ≤ settings.columns) =
      if 1 ≤ number ∧ number ≤ settings.columns then some number.toNat else none := by
    rw [filter_toCount? (by simp; omega)]
    congr 1
    simp
    omega
  rw [columnClass, read]
  by_cases inside : 1 ≤ number ∧ number ≤ settings.columns
  · rw [if_pos inside, if_pos inside]
  · rw [if_neg inside, if_neg inside]

theorem offsetClass_clampToWord (breakpoint : Breakpoint) :
    settings.offsetClass breakpoint (clampToWord number) =
      if 0 ≤ number ∧ number < settings.columns then
        .ok ⟨.offset, settings.classNames.offset breakpoint number.toNat settings.columnPrefix
          settings.columns⟩
      else .error (.offset (clampToWord number) breakpoint.short settings.columns) := by
  have read : ((toCount? (clampToWord number)).filter fun count => count < settings.columns) =
      if 0 ≤ number ∧ number < settings.columns then some number.toNat else none := by
    rw [filter_toCount? (by simp; omega)]
    congr 1
    simp
    omega
  rw [offsetClass, read]
  by_cases inside : 0 ≤ number ∧ number < settings.columns
  · rw [if_pos inside, if_pos inside]
  · rw [if_neg inside, if_neg inside]

end

/-- A token that spells no integer and has an equals sign. -/
theorem tokenClass_of_split (word : ∀ number, ¬ Spells token number) {name value : List Char}
    (split : token = name ++ '=' :: value) (first : '=' ∉ name) :
    settings.tokenClass breakpoint token = settings.valueClass breakpoint (String.ofList token)
      (String.ofList name) (String.ofList value) := by
  obtain ⟨front, behind⟩ := cut_of_split split first
  have sign : '=' ∈ token := by simp [split]
  simp only [tokenClass, integer?_eq_none_iff.mpr word, if_pos sign, front, behind]

section

variable (word : ∀ number, ¬ Spells token number) (plain : '=' ∉ token)
  (unknown : .simple (String.ofList token) ∉ settings.responders)

include word plain unknown

theorem tokenClass_of_lead {digits : List Char} (lead : token = "offset-".toList ++ digits) :
    settings.tokenClass breakpoint token =
      (integer? digits).elim (.error (.token (String.ofList token) breakpoint.short))
        (settings.offsetClass breakpoint) := by
  have free := simpleResponder?_isSome_iff.not.mpr unknown
  have front : offsetLead.isPrefixOf token = true :=
    List.isPrefixOf_iff_prefix.mpr ⟨digits, lead.symm⟩
  have behind : token.drop offsetLead.length = digits := by simp [lead, offsetLead]
  cases read : integer? digits <;>
    simp only [tokenClass, integer?_eq_none_iff.mpr word, if_neg plain, if_neg free, if_pos front,
      behind, read, Option.elim]

theorem tokenClass_of_no_lead (noLead : ¬ offsetLead <+: token) :
    settings.tokenClass breakpoint token = .error (.token (String.ofList token) breakpoint.short) := by
  have free := simpleResponder?_isSome_iff.not.mpr unknown
  have front := List.isPrefixOf_iff_prefix.not.mpr noLead
  simp only [tokenClass, integer?_eq_none_iff.mpr word, if_neg plain, if_neg free, if_neg front]

end

/-- What the rules say of a token is what is made of it. -/
theorem tokenClass_of_classifies (bounded : settings.columns ≤ largestCount)
    {result : Except Refusal ClassEntry} (classified : settings.Classifies breakpoint token result) :
    settings.tokenClass breakpoint token = result := by
  cases classified with
  | column spelled inside =>
    simp only [tokenClass, integer?_of_spells spelled]
    rw [columnClass_clampToWord bounded, if_pos inside]
  | columnOutside spelled outside =>
    simp only [tokenClass, integer?_of_spells spelled]
    rw [columnClass_clampToWord bounded, if_neg outside]
  | value word split first known allowed =>
    rw [tokenClass_of_split word split first]
    simp [valueClass, complexResponder?_of_first known, Term.allows, allowed]
  | valueNotAllowed word split first known refused =>
    rw [tokenClass_of_split word split first]
    simp [valueClass, complexResponder?_of_first known, Term.allows, refused]
  | nameUnknown word split first unknown =>
    rw [tokenClass_of_split word split first]
    simp [valueClass, complexResponder?_eq_none_iff.mpr unknown]
  | responder word plain known =>
    simp only [tokenClass, integer?_eq_none_iff.mpr word, if_neg plain,
      if_pos (simpleResponder?_isSome_iff.mpr known)]
  | offset word plain unknown lead spelled inside =>
    rw [tokenClass_of_lead word plain unknown lead, integer?_of_spells spelled]
    exact (offsetClass_clampToWord bounded _ breakpoint).trans (if_pos inside)
  | offsetOutside word plain unknown lead spelled outside =>
    rw [tokenClass_of_lead word plain unknown lead, integer?_of_spells spelled]
    exact (offsetClass_clampToWord bounded _ breakpoint).trans (if_neg outside)
  | other word plain unknown noOffset =>
    by_cases front : offsetLead <+: token
    · obtain ⟨digits, lead⟩ := front
      have unread := integer?_eq_none_iff.mpr fun number => noOffset digits number lead.symm
      rw [tokenClass_of_lead word plain unknown lead.symm, unread, Option.elim_none]
    · exact tokenClass_of_no_lead word plain unknown front

/-- The rules say something of every token. -/
theorem exists_classifies (settings : Settings) (breakpoint : Breakpoint) (token : List Char) :
    ∃ result, settings.Classifies breakpoint token result := by
  by_cases spelled : ∃ number, Spells token number
  · obtain ⟨number, spelled⟩ := spelled
    by_cases inside : 1 ≤ number ∧ number ≤ settings.columns
    · exact ⟨_, .column spelled inside⟩
    · exact ⟨_, .columnOutside spelled inside⟩
  have word := not_exists.mp spelled
  by_cases sign : '=' ∈ token
  · obtain ⟨name, value, split, first⟩ := List.eq_append_cons_of_mem sign
    cases found : settings.complexResponder? (String.ofList name) with
    | none => exact ⟨_, .nameUnknown word split first (complexResponder?_eq_none_iff.mp found)⟩
    | some term =>
      obtain ⟨values, -, known⟩ := exists_first_of_complexResponder? found
      by_cases allowed : String.ofList value ∈ values
      · exact ⟨_, .value word split first known allowed⟩
      · exact ⟨_, .valueNotAllowed word split first known allowed⟩
  by_cases known : .simple (String.ofList token) ∈ settings.responders
  · exact ⟨_, .responder word sign known⟩
  by_cases offset : ∃ digits number, token = "offset-".toList ++ digits ∧ Spells digits number
  · obtain ⟨digits, number, lead, spelled⟩ := offset
    by_cases inside : 0 ≤ number ∧ number < settings.columns
    · exact ⟨_, .offset word sign known lead spelled inside⟩
    · exact ⟨_, .offsetOutside word sign known lead spelled inside⟩
  · refine ⟨_, .other word sign known ?_⟩
    intro digits number lead spelled
    exact offset ⟨digits, number, lead, spelled⟩

/-- A token becomes what the rules say of it, and nothing else: a class or a refusal, told by the
integers that the token and what is behind its lead spell, of any size. -/
theorem tokenClass_eq_iff_classifies (bounded : settings.columns ≤ largestCount)
    {result : Except Refusal ClassEntry} :
    settings.tokenClass breakpoint token = result ↔ settings.Classifies breakpoint token result := by
  constructor
  · rintro rfl
    obtain ⟨result, classified⟩ := exists_classifies settings breakpoint token
    rwa [tokenClass_of_classifies bounded classified]
  · exact tokenClass_of_classifies bounded

/-- Numbers that no word holds, and one with a sign that makes no difference. -/
theorem tokenClass_of_long_numbers :
    let settings := ofProject (Project.empty.withColumns 12)
    let breakpoint : Breakpoint := ⟨"sm", none, none⟩
    settings.columns ≤ largestCount ∧
      settings.tokenClass breakpoint "-99999999999999999999".toList =
        .error (.columns (clampToWord (-99999999999999999999)) "sm" 12) ∧
      settings.Classifies breakpoint "+00000000000000000000012".toList (.ok ⟨.column, "sm-12"⟩) ∧
      settings.Classifies breakpoint "offset--0".toList (.ok ⟨.offset, "offset-sm-0"⟩) := by
  intro settings breakpoint
  have bounded : settings.columns ≤ largestCount := by decide
  have spelled : Spells "-99999999999999999999".toList (-99999999999999999999) :=
    .minus (isNumeral_iff.mpr (by decide +kernel))
  exact ⟨bounded, (tokenClass_eq_iff_classifies bounded).mpr (.columnOutside spelled (by decide)),
    (tokenClass_eq_iff_classifies bounded).mp (by decide +kernel),
    (tokenClass_eq_iff_classifies bounded).mp (by decide +kernel)⟩

end Settings

end LayoutMarkup
