import LayoutMarkup.Proofs.Call.Demands
import LayoutMarkup.Proofs.Call.Spans
import LayoutMarkup.Proofs.Call.Steps
import LayoutMarkup.Proofs.Lexeme.NumberText
import LayoutMarkup.Proofs.Lexeme.Strings

/-! Calls read back. The written form of a legible call is always read to its end, as a call with the
same names; what became of its literals is told by `reread`. Each kind of text is read in the midst of
an open call, with what stands behind it left over. -/

namespace LayoutMarkup

/-- What a number comes back as. -/
def Binary64.rereadArgument (number : Binary64) : Expression :=
  match number.reread with
  | .number value => .number value .nowhere
  | _ => .path (.made (String.ofList number.argumentText))

/-- What a text comes back as. -/
def Quoted.rereadText (text : String) : String :=
  String.ofList (text.toList.flatMap Quoted.reread)

theorem Quoted.rereadText_of_isPlain {text : String} (plain : ∀ c ∈ text.toList, IsPlain c) :
    rereadText text = text := by
  unfold rereadText
  rw [flatMap_eq_self fun c member => reread_of_isPlain (plain c member), String.ofList_toList]

mutual

/-- What the written form of an argument is read as, spans apart. -/
def Expression.reread : Expression → Expression
  | .path name => .path name.withoutSpan
  | .string value _ => .string (Quoted.rereadText value) .nowhere
  | .number value _ => value.rereadArgument
  | .boolean value _ => .boolean value .nowhere
  | .call inner => .call inner.reread
  | .concat parts _ => .call ⟨.made "concat", rereadConcat parts, none, .nowhere⟩

def Call.reread : Call → Call
  | ⟨path, params, hash, _⟩ => ⟨path.withoutSpan, rereadParams params, rereadHash hash, .nowhere⟩

def rereadParams : List Expression → List Expression
  | [] => []
  | value :: rest => value.reread :: rereadParams rest

def rereadHash : Option Hash → Option Hash
  | none => none
  | some ⟨pairs, _⟩ => some ⟨rereadPairs pairs, .nowhere⟩

def rereadPairs : List Pair → List Pair
  | [] => []
  | ⟨key, value, _⟩ :: rest => ⟨key, value.reread, .nowhere⟩ :: rereadPairs rest

def rereadConcat : List Part → List Expression
  | [] => []
  | .text text :: rest => .string (Quoted.rereadText text.chars) .nowhere :: rereadConcat rest
  | .mustache call :: rest =>
    (if call.isBare then .path call.path.withoutSpan else .call call.reread) :: rereadConcat rest

end

theorem rereadPairs_eq_nil {pairs : List Pair} : rereadPairs pairs = [] ↔ pairs = [] := by
  rcases pairs with - | ⟨⟨key, value, span⟩, rest⟩ <;> simp [rereadPairs]

namespace Call.Reading

open Lexeme

/-- A text that is read as one more argument of an open call. -/
def ReadsAsValue (text : List Char) (expected : Expression) : Prop :=
  ∀ (call : OpenCall) (outer : List OpenCall) (cursor : Cursor) (gap tail : List Char),
    cursor.rest = gap ++ (text ++ tail) → (∀ c ∈ gap, Unicode.isBlank c = true) → EndsWord tail →
    (call.key.isSome = true ∨ call.pairs = []) →
    ∃ value after, after.rest = tail ∧ value.withoutSpans = expected ∧
      run ⟨.argument call, outer⟩ cursor = run ⟨.argument (call.add value), outer⟩ after

/-- A text that is read as the positional arguments of an open call. -/
def ReadsAsParams (text : List Char) (expected : List Expression) : Prop :=
  (∀ tail, EndsWord tail → EndsWord (text ++ tail)) ∧
  ∀ (call : OpenCall) (outer : List OpenCall) (cursor : Cursor) (tail : List Char),
    cursor.rest = text ++ tail → EndsWord tail → call.key = none → call.pairs = [] →
    ∃ values after, after.rest = tail ∧ paramsWithoutSpans values = expected ∧
      run ⟨.argument call, outer⟩ cursor =
        run ⟨.argument { call with params := values.reverse ++ call.params }, outer⟩ after

/-- A text that is read as the named arguments of an open call. -/
def ReadsAsPairs (text : List Char) (expected : List Pair) : Prop :=
  (∀ tail, EndsWord tail → EndsWord (text ++ tail)) ∧
  ∀ (call : OpenCall) (outer : List OpenCall) (cursor : Cursor) (tail : List Char),
    cursor.rest = text ++ tail → EndsWord tail → call.key = none →
    ∃ pairs after, after.rest = tail ∧ pairsWithoutSpans pairs = expected ∧
      run ⟨.argument call, outer⟩ cursor =
        run ⟨.argument { call with pairs := pairs.reverse ++ call.pairs }, outer⟩ after

/-- A text that is read as a call, up to what ends it. -/
def ReadsAsCall (text : List Char) (expected : Call) : Prop :=
  ∀ (start : Position) (outer : List OpenCall) (cursor : Cursor) (gap tail : List Char),
    cursor.rest = gap ++ (text ++ tail) → (∀ c ∈ gap, Unicode.isBlank c = true) → EndsWord tail →
    ∃ call after, after.rest = tail ∧ call.key = none ∧
      (∀ stop, (call.finish stop).withoutSpans = expected) ∧
      run ⟨.callee start, outer⟩ cursor = run ⟨.argument call, outer⟩ after

theorem step_of_atom {call : OpenCall} {outer : List OpenCall} {placed : Placed}
    {value : Expression} (found : atom? placed = some value)
    (free : call.key.isSome = true ∨ call.pairs = []) :
    step ⟨.argument call, outer⟩ placed = .ok (.inr ⟨.argument (call.add value), outer⟩) := by
  have took : takeArgument call outer placed = .ok ⟨.argument (call.add value), outer⟩ := by
    have other : placed.lexeme ≠ .openParen := by
      intro opening
      simp [atom?, opening] at found
    simp [takeArgument, other, found]
  by_cases waiting : call.key.isSome = true
  · simp [step, waiting, took, Except.map]
  · have early : call.pairs = [] := free.resolve_left waiting
    have ongoing : placed.lexeme ≠ terminator ⟨.argument call, outer⟩ := by
      intro ended
      unfold terminator at ended
      split at ended <;> simp [atom?, ended] at found
    simp only [step, waiting, ongoing, early, took, Except.map]
    cases shape : placed.lexeme <;> simp_all [atom?]

theorem step_of_openParen {call : OpenCall} {outer : List OpenCall} {placed : Placed}
    (opening : placed.lexeme = .openParen) (free : call.key.isSome = true ∨ call.pairs = []) :
    step ⟨.argument call, outer⟩ placed =
      .ok (.inr ⟨.callee placed.span.start, call :: outer⟩) := by
  by_cases waiting : call.key.isSome = true
  · simp [step, waiting, takeArgument, opening, Except.map]
  · have early : call.pairs = [] := free.resolve_left waiting
    have ongoing : Lexeme.openParen ≠ terminator ⟨.argument call, outer⟩ := by
      unfold terminator
      split <;> simp
    simp [step, waiting, takeArgument, opening, ongoing, early, Except.map]

theorem step_of_closeParen {call parent : OpenCall} {outer : List OpenCall} {placed : Placed}
    (ended : placed.lexeme = .closeParen) (idle : call.key = none) :
    step ⟨.argument call, parent :: outer⟩ placed =
      .ok (.inr ⟨.argument (parent.add (.call (call.finish placed.span.stop))), outer⟩) := by
  simp [step, idle, ended, terminator]

/-- A lexeme that is an argument by itself is read as one. -/
theorem readsAsValue_of_read {text : List Char} {lexeme : Lexeme} {expected : Expression}
    (found : ∀ tail, EndsWord tail → read (text ++ tail) = (.ok lexeme, text.length))
    (atomic : ∀ span, ∃ value, atom? ⟨lexeme, span⟩ = some value ∧ value.withoutSpans = expected) :
    ReadsAsValue text expected := by
  intro call outer cursor gap tail shape blank ended free
  obtain ⟨span, after, step, rest⟩ := Cursor.readLexeme_of_read shape blank (found tail ended)
  obtain ⟨value, atom, same⟩ := atomic span
  exact ⟨value, after, rest, same, run_of_step step (step_of_atom atom free)⟩

/-- A call between parentheses is read as an argument. -/
theorem readsAsValue_of_call {text : List Char} {expected : Call} (reads : ReadsAsCall text expected) :
    ReadsAsValue ('(' :: (text ++ [')'])) (.call expected) := by
  intro call outer cursor gap tail shape blank ended free
  have front : cursor.rest = gap ++ (['('] ++ (text ++ (')' :: tail))) := by simp [shape]
  obtain ⟨span, inside, opened, rest⟩ :=
    Cursor.readLexeme_of_read front blank (read_openParen _)
  obtain ⟨inner, behind, left, idle, same, went⟩ :=
    reads span.start (call :: outer) inside [] (')' :: tail) rest (by simp) (endsWord_paren tail)
  have ending : behind.rest = [] ++ ([')'] ++ tail) := left
  obtain ⟨close, after, closed, last⟩ :=
    Cursor.readLexeme_of_read ending (by simp) (read_closeParen tail)
  refine ⟨.call (inner.finish close.stop), after, last, ?_, ?_⟩
  · rw [Expression.withoutSpans, same]
  · rw [run_of_step opened (step_of_openParen rfl free), went,
      run_of_step closed (step_of_closeParen rfl idle)]

theorem readsAsParams_nil : ReadsAsParams [] [] := by
  refine ⟨fun tail ended => ended, ?_⟩
  intro call outer cursor tail shape _ _ _
  exact ⟨[], cursor, shape, rfl, rfl⟩

theorem readsAsParams_cons {text others : List Char} {value : Expression} {rest : List Expression}
    (first : ReadsAsValue text value) (second : ReadsAsParams others rest) :
    ReadsAsParams (' ' :: (text ++ others)) (value :: rest) := by
  refine ⟨fun tail _ => endsWord_blank _, ?_⟩
  intro call outer cursor tail shape ended idle early
  have front : cursor.rest = [' '] ++ (text ++ (others ++ tail)) := by simp [shape]
  obtain ⟨read, between, left, same, went⟩ := first call outer cursor [' '] (others ++ tail) front
    (by decide) (second.1 tail ended) (.inr early)
  obtain ⟨values, after, last, kept, ran⟩ := second.2 (call.add read) outer between tail left ended
    (by simp [OpenCall.add, idle]) (by simp [OpenCall.add, idle, early])
  refine ⟨read :: values, after, last, by rw [paramsWithoutSpans, same, kept], ?_⟩
  rw [went, ran]
  simp [OpenCall.add, idle]

theorem readsAsPairs_nil : ReadsAsPairs [] [] := by
  refine ⟨fun tail ended => ended, ?_⟩
  intro call outer cursor tail shape _ _
  exact ⟨[], cursor, shape, rfl, rfl⟩

theorem readsAsPairs_cons {key : String} {text others : List Char} {value : Expression}
    {rest : List Pair} (word : IsKey key.toList) (first : ReadsAsValue text value)
    (second : ReadsAsPairs others rest) :
    ReadsAsPairs (' ' :: (key.toList ++ '=' :: (text ++ others))) (⟨key, value, .nowhere⟩ :: rest) := by
  refine ⟨fun tail _ => endsWord_blank _, ?_⟩
  intro call outer cursor tail shape ended idle
  have front : cursor.rest = [' '] ++ ((key.toList ++ ['=']) ++ (text ++ (others ++ tail))) := by
    simp [shape]
  have named : Lexeme.read ((key.toList ++ ['=']) ++ (text ++ (others ++ tail))) =
      (.ok (.key key), (key.toList ++ ['=']).length) := by
    rw [List.append_assoc, List.singleton_append, read_key word, String.ofList_toList]
    simp
  obtain ⟨span, behind, found, left⟩ := Cursor.readLexeme_of_read front (by decide) named
  have waits : step ⟨.argument call, outer⟩ ⟨.key key, span⟩ =
      .ok (.inr ⟨.argument { call with key := some (key, span.start) }, outer⟩) := by
    have ongoing : Lexeme.key key ≠ terminator ⟨.argument call, outer⟩ := by
      unfold terminator
      split <;> simp
    simp [step, idle, ongoing]
  obtain ⟨read, between, more, same, went⟩ := first { call with key := some (key, span.start) } outer
    behind [] (others ++ tail) left (by simp) (second.1 tail ended) (.inl rfl)
  obtain ⟨pairs, after, last, kept, ran⟩ := second.2
    (OpenCall.add { call with key := some (key, span.start) } read) outer between tail more ended rfl
  refine ⟨⟨key, read, span.start, read.span.stop⟩ :: pairs, after, last, ?_, ?_⟩
  · rw [pairsWithoutSpans, same, kept]
  · rw [run_of_step found waits, went, ran]
    simp [OpenCall.add, idle]

/-- A name with its arguments is read as a call. -/
theorem readsAsCall_of_args {name : String} {params : List Expression} {pairs : List Pair}
    {positional named : List Char} (word : IsName name.toList)
    (first : ReadsAsParams positional params) (second : ReadsAsPairs named pairs) :
    ReadsAsCall (name.toList ++ positional ++ named)
      ⟨.made name, params, if pairs = [] then none else some ⟨pairs, .nowhere⟩, .nowhere⟩ := by
  intro start outer cursor gap tail shape blank ended
  have behind := first.1 _ (second.1 tail ended)
  have front : cursor.rest = gap ++ (name.toList ++ (positional ++ (named ++ tail))) := by
    simp [shape]
  have callee := read_name word behind
  rw [String.ofList_toList] at callee
  obtain ⟨span, after, found, left⟩ := Cursor.readLexeme_of_read front blank callee
  have begins : step ⟨.callee start, outer⟩ ⟨.path name, span⟩ =
      .ok (.inr ⟨.argument (.named ⟨name, span⟩ start), outer⟩) := rfl
  obtain ⟨values, between, more, kept, went⟩ := first.2 (.named ⟨name, span⟩ start) outer after
    (named ++ tail) left (second.1 tail ended) rfl rfl
  obtain ⟨read, last, rest, same, ran⟩ := second.2
    { OpenCall.named ⟨name, span⟩ start with params := values.reverse ++ [] } outer between tail
    more ended rfl
  refine ⟨_, last, rest, rfl, ?_, (run_of_step found begins).trans (went.trans ran)⟩
  intro stop
  have empty : read = [] ↔ pairs = [] := by rw [← same, pairsWithoutSpans_eq_nil]
  by_cases none : pairs = []
  · obtain rfl := empty.mpr none
    simp [OpenCall.finish, OpenCall.hash, OpenCall.named, Call.withoutSpans, hashWithoutSpans, kept,
      none, Path.withoutSpan, Path.made]
  · have filled : read ≠ [] := fun nothing => none (empty.mp nothing)
    simp [OpenCall.finish, OpenCall.hash, OpenCall.named, Call.withoutSpans, hashWithoutSpans_ofPairs,
      kept, same, none, filled, Path.withoutSpan, Path.made]

theorem readsAsValue_name {name : String} (word : IsName name.toList) :
    ReadsAsValue name.toList (.path (.made name)) := by
  have found : ∀ tail, EndsWord tail →
      Lexeme.read (name.toList ++ tail) = (.ok (.path name), name.toList.length) := by
    intro tail ended
    rw [read_name word ended, String.ofList_toList]
  exact readsAsValue_of_read found fun span => ⟨_, rfl, rfl⟩

theorem readsAsValue_string (text : String) :
    ReadsAsValue (Quoted.text text.toList) (.string (Quoted.rereadText text) .nowhere) := by
  exact readsAsValue_of_read (fun tail _ => read_quoted text.toList tail)
    fun span => ⟨_, rfl, rfl⟩

theorem readsAsValue_number (number : Binary64) :
    ReadsAsValue number.argumentText number.rereadArgument := by
  apply readsAsValue_of_read fun tail ended => number.read_argumentText ended
  intro span
  unfold Binary64.rereadArgument Binary64.reread
  split
  · split
    · exact ⟨_, rfl, by simp_all [Expression.withoutSpans]⟩
    · simp_all
  · exact ⟨_, rfl, rfl⟩

theorem readsAsValue_boolean (value : Bool) :
    ReadsAsValue (booleanText value) (.boolean value .nowhere) := by
  exact readsAsValue_of_read (fun tail ended => read_boolean value ended)
    fun span => ⟨_, rfl, rfl⟩

/-- A call that is only a name. -/
theorem write_of_isBare {call : Call} (bare : call.isBare = true) :
    call.write = call.path.name.toList := by
  obtain ⟨path, params, hash, span⟩ := call
  simp only [Call.isBare, Bool.and_eq_true, List.isEmpty_iff, Option.isNone_iff_eq_none] at bare
  obtain ⟨rfl, rfl⟩ := bare
  simp [Call.write, writeParams, writeHash]

theorem isName_of_meets {call : Call} (met : call.meets .legible = true) :
    IsName call.path.name.toList := by
  obtain ⟨path, params, hash, span⟩ := call
  simp only [Call.meets, Demands.legible, Demands.namedCall, Bool.and_eq_true,
    decide_eq_true_eq] at met
  exact met.1.1.1

mutual

theorem readsAsValue_write : ∀ value : Expression, value.meets .legible = true →
    ReadsAsValue value.write value.reread
  | .path name, met => by
    apply readsAsValue_name
    simpa [Expression.meets, Demands.legible] using met
  | .string text _, _ => readsAsValue_string text
  | .number amount _, _ => readsAsValue_number amount
  | .boolean value _, _ => readsAsValue_boolean value
  | .call inner, met => by
    simp only [Expression.meets, Bool.and_eq_true] at met
    exact readsAsValue_of_call (readsAsCall_write inner met.2)
  | .concat parts _, met => by
    simp only [Expression.meets, Bool.and_eq_true] at met
    have word : IsName "concat".toList := by decide
    have inner := readsAsCall_of_args word (readsAsParams_writeConcat parts met.2) readsAsPairs_nil
    rw [List.append_nil] at inner
    exact readsAsValue_of_call inner

/-- The written form of a legible call is read to its end. -/
theorem readsAsCall_write : ∀ call : Call, call.meets .legible = true →
    ReadsAsCall call.write call.reread
  | ⟨path, params, none, _⟩, met => by
    have word := isName_of_meets met
    simp only [Call.meets, Bool.and_eq_true] at met
    exact readsAsCall_of_args word (readsAsParams_write params met.1.2) readsAsPairs_nil
  | ⟨path, params, some ⟨pairs, _⟩, _⟩, met => by
    have word := isName_of_meets met
    have filled : rereadPairs pairs ≠ [] := by
      rintro nothing
      simp only [Call.meets, Demands.legible, Demands.namedCall, rereadPairs_eq_nil.mp nothing,
        Option.all_some, List.isEmpty_nil, Bool.not_true, Bool.and_false, Bool.false_and,
        Bool.false_eq_true] at met
    simp only [Call.meets, Bool.and_eq_true] at met
    have reads := readsAsCall_of_args word (readsAsParams_write params met.1.2)
      (readsAsPairs_write pairs met.2)
    rw [if_neg filled] at reads
    exact reads

theorem readsAsParams_write : ∀ params : List Expression, paramsMeet .legible params = true →
    ReadsAsParams (writeParams params) (rereadParams params)
  | [], _ => readsAsParams_nil
  | value :: rest, met => by
    simp only [paramsMeet, Bool.and_eq_true] at met
    exact readsAsParams_cons (readsAsValue_write value met.1) (readsAsParams_write rest met.2)

theorem readsAsPairs_write : ∀ pairs : List Pair, pairsMeet .legible pairs = true →
    ReadsAsPairs (writePairs pairs) (rereadPairs pairs)
  | [], _ => readsAsPairs_nil
  | ⟨_, value, _⟩ :: rest, met => by
    simp only [pairsMeet, Bool.and_eq_true, Demands.legible, decide_eq_true_eq] at met
    exact readsAsPairs_cons met.1.1 (readsAsValue_write value met.1.2)
      (readsAsPairs_write rest met.2)

theorem readsAsParams_writeConcat : ∀ parts : List Part, partsMeet .legible parts = true →
    ReadsAsParams (writeConcat parts) (rereadConcat parts)
  | [], _ => readsAsParams_nil
  | .text text :: rest, met =>
    readsAsParams_cons (readsAsValue_string text.chars) (readsAsParams_writeConcat rest met)
  | .mustache call :: rest, met => by
    simp only [partsMeet, Bool.and_eq_true] at met
    have others := readsAsParams_writeConcat rest met.2
    by_cases bare : call.isBare = true
    · have alone := readsAsValue_name (isName_of_meets met.1)
      rw [← write_of_isBare bare] at alone
      simpa [writeConcat, rereadConcat, bare, Path.withoutSpan] using
        readsAsParams_cons alone others
    · have inner := readsAsValue_of_call (readsAsCall_write call met.1)
      simpa [writeConcat, rereadConcat, bare] using readsAsParams_cons inner others

end

end Call.Reading

/-- Behind its name a call goes on with a blank, or it does not go on. -/
theorem Call.write_eq_name_append (call : Call) :
    ∃ args, call.write = call.path.name.toList ++ args ∧ (args = [] ∨ args.head? = some ' ') := by
  obtain ⟨path, params, hash, span⟩ := call
  refine ⟨writeParams params ++ writeHash hash, by simp [write], ?_⟩
  cases params with
  | cons value rest => exact .inr rfl
  | nil =>
    rcases hash with - | ⟨- | ⟨⟨key, value, span⟩, rest⟩, around⟩
    · exact .inl rfl
    · exact .inl rfl
    · exact .inr rfl

theorem Lexeme.endsWord_args {args : List Char} (begins : args = [] ∨ args.head? = some ' ')
    {tail : List Char} (ended : EndsWord tail) : EndsWord (args ++ tail) := by
  rcases begins with rfl | blank
  · exact ended
  · obtain ⟨rest, rfl⟩ := List.head?_eq_some_iff.mp blank
    exact endsWord_blank _

namespace Cursor

open Lexeme Call.Reading

variable {cursor : Cursor} {tail : List Char}

theorem readCall_write {call : Call} (start : Position) (met : call.meets .legible = true)
    (shape : cursor.rest = call.write ++ '}' :: '}' :: tail) :
    ∃ read after, cursor.readCall start = .ok (read, after) ∧ after.rest = tail ∧
      read.withoutSpans = call.reread := by
  obtain ⟨inner, behind, left, idle, same, went⟩ := readsAsCall_write call met start [] cursor []
    ('}' :: '}' :: tail) shape (by simp) (endsWord_brace _)
  have ending : behind.rest = [] ++ (['}', '}'] ++ tail) := left
  obtain ⟨span, after, found, rest⟩ := readLexeme_of_read ending (by simp) (read_close tail)
  have ended : step ⟨.argument inner, []⟩ ⟨.close, span⟩ = .ok (.inl (inner.finish span.stop)) := by
    simp [step, idle, terminator]
  exact ⟨inner.finish span.stop, after, went.trans (run_of_close found ended), rest, same _⟩

/-- A written mustache is read to its end. -/
theorem readMustache_write {call : Call} (met : call.meets .legible = true)
    (shape : cursor.rest = call.writeMustache ++ tail) :
    ∃ read after, cursor.readMustache = .ok (read, after) ∧ after.rest = tail ∧
      read.withoutSpans = call.reread := by
  have braces : cursor.rest = ['{', '{'] ++ (call.write ++ '}' :: '}' :: tail) := by
    simp [shape, Call.writeMustache]
  exact readCall_write _ met (rest_skip braces)

theorem readPath_write {name : String} (word : IsName name.toList) (ended : EndsWord tail)
    (shape : cursor.rest = name.toList ++ tail) :
    ∃ path after, cursor.readPath = .ok (path, after) ∧ after.rest = tail ∧ path.name = name := by
  have found := read_name word ended
  rw [String.ofList_toList] at found
  have front : cursor.rest = [] ++ (name.toList ++ tail) := shape
  obtain ⟨span, after, step, rest⟩ := readLexeme_of_read front (by simp) found
  exact ⟨⟨name, span⟩, after, by simp [readPath, step], rest, rfl⟩

theorem readClose_write (shape : cursor.rest = '}' :: '}' :: tail) :
    ∃ after, cursor.readClose = .ok after ∧ after.rest = tail := by
  have ending : cursor.rest = [] ++ (['}', '}'] ++ tail) := shape
  obtain ⟨span, after, step, rest⟩ := readLexeme_of_read ending (by simp) (read_close tail)
  exact ⟨after, by simp [readClose, step], rest⟩

end Cursor

end LayoutMarkup
