import LayoutMarkup.Proofs.Call.Loops
import LayoutMarkup.Proofs.Source.Stretch
import LayoutMarkup.Proofs.Template.FaultPlaces

/-! The loops that read a template, beside the one over the arguments of a call: over the characters of a
text, over the attributes of a start tag, over the characters and mustaches of a quoted value, and over
the pieces of the content. Each turn of each of them ends the loop or passes some text. -/

namespace LayoutMarkup

namespace Cursor

variable {cursor : Cursor} {c : Char} {rest : List Char}

theorem rest_advance (shape : cursor.rest = c :: rest) : cursor.advance.rest = rest := by
  rw [advance, skip, shape]
  rfl

theorem length_advance (shape : cursor.rest = c :: rest) :
    cursor.advance.rest.length < cursor.rest.length := by
  rw [rest_advance shape, shape]
  exact Nat.lt_succ_self _

theorem skip_succ (cursor : Cursor) (count : Nat) : cursor.skip (count + 1) = cursor.advance.skip count := by
  rw [advance, skip_skip, Nat.add_comm]

end Cursor

section

variable (stop : List Char → Bool)

/-- The characters of a text up to a stop, one a turn; the state holds them latest first. -/
def stretchLoop : Loop (List Char) (List Char) := fun chars cursor =>
  match cursor.rest with
  | [] => .ends chars.reverse cursor
  | c :: _ => if stop cursor.rest then .ends chars.reverse cursor else .goesOn (c :: chars) cursor.advance

/-- What the loop comes to, some characters in. -/
def readStretch (chars : List Char) (cursor : Cursor) : Except Fault (List Char × Cursor) :=
  .ok (chars.reverse ++ stretch stop cursor.rest, cursor.skip (stretch stop cursor.rest).length)

theorem isOnward_stretchLoop (chars : List Char) (cursor : Cursor) :
    (stretchLoop stop chars cursor).IsOnward cursor := by
  unfold stretchLoop
  split
  · exact .ends ⟨[], .refl cursor⟩
  · rename_i shape
    split
    · exact .ends ⟨[], .refl cursor⟩
    · exact Turn.isOnward_of_lt (cursor.reaches_skip 1) (Cursor.length_advance shape) _

theorem readStretch_eq_resolve (chars : List Char) (cursor : Cursor) :
    readStretch stop chars cursor = (stretchLoop stop chars cursor).resolve (readStretch stop) := by
  unfold stretchLoop readStretch
  cases shape : cursor.rest with
  | nil => simp [stretch, Turn.resolve, Cursor.skip_zero]
  | cons c rest =>
    by_cases stops : stop (c :: rest) = true
    · simp [stretch, stops, Turn.resolve, Cursor.skip_zero]
    · simp [stretch, stops, Turn.resolve, Cursor.rest_advance shape, Cursor.skip_succ]

theorem makes_stretchLoop : (stretchLoop stop).Makes (fun _ => []) fun cursor =>
    .ok (stretch stop cursor.rest, cursor.skip (stretch stop cursor.rest).length) :=
  Loop.makes_of_turn (isOnward_stretchLoop stop) (readStretch_eq_resolve stop) fun _ => []

end

namespace Cursor

section

variable (tag : String)

/-- The attributes of a start tag, one a turn; the state holds them latest first. -/
def startTagLoop : Loop (List Attribute) (List Attribute × Bool) := fun attributes cursor =>
  let front := cursor.skipBlank
  if front.sees ['/', '>'] then .ends (attributes.reverse, true) (front.skip 2)
  else if front.sees ['>'] then .ends (attributes.reverse, false) (front.skip 1)
  else if front.atEnd then .fails (front.fault (.unclosedStartTag tag))
  else
    match front.readAttribute with
    | .error fault => .fails fault
    | .ok (attr, after) => .goesOn (attr :: attributes) after

/-- What the loop comes to, some attributes in. -/
def readAttributesBehind (attributes : List Attribute) (cursor : Cursor) :
    Except Fault ((List Attribute × Bool) × Cursor) :=
  (cursor.readAttributes tag).map fun (others, closing, last) =>
    ((attributes.reverse ++ others, closing), last)

theorem isOnward_startTagLoop (attributes : List Attribute) (cursor : Cursor) :
    (startTagLoop tag attributes cursor).IsOnward cursor := by
  have front : cursor.Reaches cursor.skipBlank := cursor.reaches_skip _
  unfold startTagLoop
  dsimp only
  split
  · exact .ends (front.trans (reaches_skip _ 2))
  · split
    · exact .ends (front.trans (reaches_skip _ 1))
    · split
      · rename_i ended
        exact .fails (isAhead_fault front fun _ => List.isEmpty_iff.mp ended)
      · split
        · rename_i refused
          exact .fails ((isAhead_of_readAttribute refused).of_reaches front)
        · rename_i found
          have shorter := Nat.lt_of_lt_of_le (length_of_readAttribute found) cursor.length_skipBlank_le
          exact Turn.isOnward_of_lt (front.trans (reaches_of_readAttribute found)) shorter _

theorem readAttributesBehind_eq_resolve (attributes : List Attribute) (cursor : Cursor) :
    readAttributesBehind tag attributes cursor =
      (startTagLoop tag attributes cursor).resolve (readAttributesBehind tag) := by
  rw [readAttributesBehind, readAttributes_eq, startTagLoop]
  dsimp only
  split
  · simp [Except.map, Turn.resolve]
  · split
    · simp [Except.map, Turn.resolve]
    · split
      · simp [Except.map, Turn.resolve]
      · cases cursor.skipBlank.readAttribute with
        | error fault => simp [Except.map, Turn.resolve]
        | ok found =>
          simp only [Turn.resolve, readAttributesBehind]
          cases found.2.readAttributes tag <;> simp [Except.map]

theorem makes_startTagLoop :
    (startTagLoop tag).Makes (fun _ => []) (readAttributesBehind tag []) :=
  Loop.makes_of_turn (isOnward_startTagLoop tag) (readAttributesBehind_eq_resolve tag) fun _ => []

end

/-- A quoted value that is being read: its parts latest first, and behind them the characters of a literal
stretch, latest first, and where it starts. -/
structure OpenValue where
  parts : List Part
  chars : List Char
  start : Position

namespace OpenValue

/-- A value of which nothing has been read. -/
def empty (start : Position) : OpenValue := ⟨[], [], start⟩

/-- The parts, if the literal stretch ends at a place with some more characters. -/
def close (value : OpenValue) (stop : Position) (others : List Char) : List Part :=
  value.parts.reverse ++ Part.ofStretch (value.chars.reverse ++ others) ⟨value.start, stop⟩

end OpenValue

section

variable (quote : Char)

/-- A quoted value, a character or a mustache a turn. -/
def quotedLoop : Loop OpenValue (List Part) := fun value cursor =>
  match cursor.peek? with
  | none => .fails (cursor.fault .unterminatedValue)
  | some c =>
    if c = quote then .ends (value.close cursor.position []) cursor
    else if startsMustache cursor.rest then
      match cursor.readMustache with
      | .error fault => .fails fault
      | .ok (call, after) =>
        .goesOn ⟨.mustache call :: (value.close cursor.position []).reverse, [], after.position⟩ after
    else .goesOn { value with chars := c :: value.chars } cursor.advance

/-- What the loop comes to, with some of the value read. -/
def readPartsBehind (value : OpenValue) (cursor : Cursor) : Except Fault (List Part × Cursor) :=
  let stretch := literalStretch quote cursor.rest
  let behind := cursor.skip stretch.length
  let parts := value.close behind.position stretch
  match behind.peek? with
  | none => .error (behind.fault .unterminatedValue)
  | some c =>
    if c = quote then .ok (parts, behind)
    else
      match behind.readMustache with
      | .error fault => .error fault
      | .ok (call, after) =>
        (after.readParts quote).map fun (others, last) => (parts ++ .mustache call :: others, last)

theorem isOnward_quotedLoop (value : OpenValue) (cursor : Cursor) :
    (quotedLoop quote value cursor).IsOnward cursor := by
  unfold quotedLoop
  split
  · rename_i none
    exact .fails (isAhead_fault ⟨[], .refl cursor⟩ fun _ => List.head?_eq_none_iff.mp none)
  · rename_i c next
    split
    · exact .ends ⟨[], .refl cursor⟩
    · split
      · split
        · rename_i refused
          exact .fails (isAhead_of_readMustache refused)
        · rename_i found
          exact Turn.isOnward_of_lt (span_of_readMustache found).1 (length_of_readMustache found) _
      · obtain ⟨rest, shape⟩ := List.head?_eq_some_iff.mp next
        exact Turn.isOnward_of_lt (cursor.reaches_skip 1) (length_advance shape) _

/-- With no literal stretch open, a value is read on as it would be read from here. -/
theorem readPartsBehind_eq_map (parts : List Part) (cursor : Cursor) :
    readPartsBehind quote ⟨parts.reverse, [], cursor.position⟩ cursor =
      (cursor.readParts quote).map fun (others, last) => (parts ++ others, last) := by
  rw [readPartsBehind, readParts_eq]
  dsimp only [OpenValue.close]
  rw [List.reverse_reverse, List.reverse_nil, List.nil_append]
  generalize cursor.skip (literalStretch quote cursor.rest).length = behind
  cases behind.peek? with
  | none => rfl
  | some c =>
    by_cases same : c = quote
    · simp [same, Except.map]
    · simp only [same, if_false]
      cases behind.readMustache with
      | error fault => rfl
      | ok found =>
        obtain ⟨call, after⟩ := found
        dsimp only
        cases after.readParts quote <;> simp [Except.map]

theorem readPartsBehind_eq_resolve (value : OpenValue) (cursor : Cursor) :
    readPartsBehind quote value cursor =
      (quotedLoop quote value cursor).resolve (readPartsBehind quote) := by
  cases shape : cursor.rest with
  | nil =>
    have ended : cursor.peek? = none := List.head?_eq_none_iff.mpr shape
    simp [readPartsBehind, quotedLoop, shape, literalStretch, skip_zero, ended, Turn.resolve]
  | cons c rest =>
    have next : cursor.peek? = some c := List.head?_eq_some_iff.mpr ⟨rest, shape⟩
    by_cases same : c = quote
    · simp [readPartsBehind, quotedLoop, shape, literalStretch, skip_zero, next, same, Turn.resolve]
    by_cases opens : startsMustache (c :: rest) = true
    · simp only [readPartsBehind, quotedLoop, shape, literalStretch, next, same, opens, decide_false,
        Bool.false_or, if_true, if_false, List.length_nil, skip_zero]
      cases cursor.readMustache with
      | error fault => rfl
      | ok found =>
        obtain ⟨call, after⟩ := found
        have onward := readPartsBehind_eq_map quote (value.close cursor.position [] ++ [.mustache call]) after
        rw [List.reverse_append, List.reverse_singleton] at onward
        rw [Turn.resolve]
        refine Eq.trans ?_ onward.symm
        simp
    · simp [readPartsBehind, quotedLoop, shape, literalStretch, next, same, opens, Turn.resolve,
        rest_advance shape, skip_succ, OpenValue.close]

theorem makes_quotedLoop :
    (quotedLoop quote).Makes (fun cursor => .empty cursor.position) fun cursor => cursor.readParts quote := by
  have makes := Loop.makes_of_turn (isOnward_quotedLoop quote) (readPartsBehind_eq_resolve quote)
    fun cursor => .empty cursor.position
  refine ⟨makes.onward, makes.rows, fun cursor => (makes.ends cursor).trans (congrArg some ?_)⟩
  refine (readPartsBehind_eq_map quote [] cursor).trans ?_
  cases cursor.readParts quote <;> rfl

end

end Cursor

namespace Tree.Reading

/-- The content of a template, a piece a turn. -/
def contentLoop : Loop Reading (List Tree) := fun reading cursor =>
  if cursor.rest = [] then
    match reading.branches with
    | [] => .ends reading.siblings.reverse cursor
    | innermost :: _ => .fails (cursor.fault innermost.opening.missing)
  else
    match reading.step cursor with
    | .error fault => .fails fault
    | .ok (reading', after) => .goesOn reading' after

theorem isOnward_contentLoop (reading : Reading) (cursor : Cursor) :
    (contentLoop reading cursor).IsOnward cursor := by
  unfold contentLoop
  split
  · rename_i ended
    split
    · exact .ends ⟨[], .refl cursor⟩
    · exact .fails (Cursor.isAhead_fault ⟨[], .refl cursor⟩ fun _ => ended)
  · rename_i filled
    split
    · rename_i refused
      exact .fails (isAhead_of_step refused)
    · rename_i moved
      exact Turn.isOnward_of_lt (reaches_of_moves (moves_of_step moved)) (length_of_step filled moved) _

theorem run_eq_resolve (reading : Reading) (cursor : Cursor) :
    reading.run cursor = (contentLoop reading cursor).resolve run := by
  rw [run_eq, contentLoop]
  split
  · cases reading.branches <;> rfl
  · cases reading.step cursor <;> rfl

theorem makes_contentLoop (reading : Reading) : contentLoop.Makes (fun _ => reading) reading.run :=
  Loop.makes_of_turn isOnward_contentLoop run_eq_resolve fun _ => reading

/-- A piece of a source opens one branch at most. -/
theorem length_branches_of_moves {reading reading' : Reading} {cursor after : Cursor}
    (moves : Moves reading cursor reading' after) :
    reading'.branches.length ≤ reading.branches.length + 1 := by
  cases moves with
  | text plain => exact Nat.le_succ _
  | mustache markup first found => exact Nat.le_succ _
  | comment markup first found => exact Nat.le_succ _
  | lone markup first name found whole => exact Nat.le_succ _
  | enterElement markup first name found ordinary => exact Nat.le_refl _
  | closeElement markup first inside name found =>
    rw [inside, List.length_cons]
    exact Nat.le_add_right _ 2
  | enterBlock markup first found => exact Nat.le_refl _
  | closeBlock markup first inside found name closed =>
    rw [inside, List.length_cons]
    exact Nat.le_add_right _ 2

/-- No branch is opened without a character that is passed. -/
theorem pays_contentLoop : contentLoop.Pays fun reading => reading.branches.length := by
  apply Loop.pays_of_le isOnward_contentLoop
  intro reading cursor reading' after turned
  unfold contentLoop at turned
  split at turned
  · split at turned <;> cases turned
  · split at turned
    · cases turned
    · rename_i moved
      cases turned
      exact length_branches_of_moves (moves_of_step moved)

end Tree.Reading

end LayoutMarkup
