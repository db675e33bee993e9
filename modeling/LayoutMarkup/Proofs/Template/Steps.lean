import LayoutMarkup.Template.Read

/-! What one piece of a source can do to the reading of a template. Every fact about templates that
were read goes through these eight moves. -/

namespace LayoutMarkup

def Opening.isBlock : Opening → Bool
  | .element .. => false
  | .block .. => true

namespace Cursor

/-- The parts of a quoted value, without what shows that the reading ends. -/
theorem readParts_eq (cursor : Cursor) (quote : Char) : cursor.readParts quote =
    let stretch := literalStretch quote cursor.rest
    let behind := cursor.skip stretch.length
    let literal := Part.ofStretch stretch ⟨cursor.position, behind.position⟩
    match behind.peek? with
    | none => .error (behind.fault .unterminatedValue)
    | some c =>
      if c = quote then .ok (literal, behind)
      else
        match behind.readMustache with
        | .error fault => .error fault
        | .ok (call, after) =>
          match after.readParts quote with
          | .error fault => .error fault
          | .ok (parts, last) => .ok (literal ++ .mustache call :: parts, last) := by
  rw [readParts]
  dsimp only
  generalize cursor.skip (literalStretch quote cursor.rest).length = behind
  cases behind.peek? with
  | none => rfl
  | some c =>
    by_cases same : c = quote
    · simp only [same, if_true]
    · simp only [same, if_false]
      cases behind.readMustache with
      | error fault => rfl
      | ok found => rfl

/-- The attributes of a start tag, without what shows that the reading ends. -/
theorem readAttributes_eq (cursor : Cursor) (tag : String) : cursor.readAttributes tag =
    let front := cursor.skipBlank
    if front.sees ['/', '>'] then .ok ([], true, front.skip 2)
    else if front.sees ['>'] then .ok ([], false, front.skip 1)
    else if front.atEnd then .error (front.fault (.unclosedStartTag tag))
    else
      match front.readAttribute with
      | .error fault => .error fault
      | .ok (attr, after) =>
        match after.readAttributes tag with
        | .error fault => .error fault
        | .ok (attrs, selfClosing, last) => .ok (attr :: attrs, selfClosing, last) := by
  rw [readAttributes]
  dsimp only
  split
  · rfl
  · split
    · rfl
    · split
      · rfl
      · cases cursor.skipBlank.readAttribute with
        | error fault => rfl
        | ok found => rfl

end Cursor

namespace Tree.Reading

/-- A run, without what shows that it ends. -/
theorem run_eq (reading : Reading) (cursor : Cursor) : reading.run cursor =
    if cursor.rest = [] then
      match reading.branches with
      | [] => .ok (reading.siblings.reverse, cursor)
      | innermost :: _ => .error (cursor.fault innermost.opening.missing)
    else
      match reading.step cursor with
      | .error fault => .error fault
      | .ok (reading', after) => reading'.run after := by
  rw [run]
  split
  · rfl
  · cases reading.step cursor with
    | error fault => rfl
    | ok found => rfl

/-- The name behind the first characters of a tag. -/
def tagBehind (cursor : Cursor) (count : Nat) : List Char := (cursor.skip count).run isTagChar

/-- What is left behind that name. -/
def behindTag (cursor : Cursor) (count : Nat) : Cursor :=
  (cursor.skip count).skip (tagBehind cursor count).length

/-- What one piece of the source makes of a reading. -/
inductive Moves (reading : Reading) (cursor : Cursor) : Reading → Cursor → Prop where
  | text (plain : startsMarkup cursor.rest = false) :
      Moves reading cursor (reading.readText cursor).1 (reading.readText cursor).2
  | mustache {call : Call} {after : Cursor} (markup : startsMarkup cursor.rest = true)
      (first : Markup.first cursor.rest = .mustache)
      (found : cursor.readMustache = .ok (call, after)) :
      Moves reading cursor (reading.push (.leaf (.mustache call))) after
  | comment {form : CommentForm} {value : List Char} {after : Cursor}
      (markup : startsMarkup cursor.rest = true)
      (first : Markup.first cursor.rest = .comment form)
      (found : (cursor.skip form.opening).pastTerminator? form.terminator = some (value, after)) :
      Moves reading cursor
        (reading.push (.leaf (.comment
          ⟨String.ofList value, form.isHtml, cursor.position, after.position⟩))) after
  | lone {tag : String} {attributes : List Attribute} {closing : Bool} {after : Cursor}
      (markup : startsMarkup cursor.rest = true)
      (first : Markup.first cursor.rest = .startTag) (name : tag = String.ofList (tagBehind cursor 1))
      (found : (behindTag cursor 1).readAttributes tag = .ok (attributes, closing, after))
      (whole : (closing || isVoidTag tag) = true) :
      Moves reading cursor
        (reading.push (.branch
          (.element ⟨tag, attributes, closing, cursor.position, after.position⟩) [])) after
  | enterElement {tag : String} {attributes : List Attribute} {after : Cursor}
      (markup : startsMarkup cursor.rest = true)
      (first : Markup.first cursor.rest = .startTag) (name : tag = String.ofList (tagBehind cursor 1))
      (found : (behindTag cursor 1).readAttributes tag = .ok (attributes, false, after))
      (ordinary : isVoidTag tag = false) :
      Moves reading cursor (reading.enter (.element tag attributes cursor.position)) after
  | closeElement {tag : String} {attributes : List Attribute} {start : Position}
      {before : List Tree} {outer : List OpenBranch} {after : Cursor}
      (markup : startsMarkup cursor.rest = true)
      (first : Markup.first cursor.rest = .closingTag)
      (inside : reading.branches = ⟨.element tag attributes start, before⟩ :: outer)
      (name : tag = String.ofList (tagBehind cursor 2))
      (found : (behindTag cursor 2).skipBlank.eat? ['>'] = some after) :
      Moves reading cursor
        ⟨outer, .branch (.element ⟨tag, attributes, false, start, after.position⟩)
          reading.siblings.reverse :: before⟩ after
  | enterBlock {opening : Nat} {call : Call} {after : Cursor}
      (markup : startsMarkup cursor.rest = true)
      (first : Markup.first cursor.rest = .blockOpen opening)
      (found : (cursor.skip opening).readCall cursor.position = .ok (call, after)) :
      Moves reading cursor (reading.enter (.block call cursor.position after.position)) after
  | closeBlock {opening : Nat} {call : Call} {start bodyStart : Position} {before : List Tree}
      {outer : List OpenBranch} {path : Path} {behind after : Cursor}
      (markup : startsMarkup cursor.rest = true)
      (first : Markup.first cursor.rest = .blockClose opening)
      (inside : reading.branches = ⟨.block call start bodyStart, before⟩ :: outer)
      (found : (cursor.skip opening).readPath = .ok (path, behind))
      (name : path.name = call.path.name) (closed : behind.readClose = .ok after) :
      Moves reading cursor
        ⟨outer, .branch (.block
          { path := call.path
            params := call.params
            hash := call.hash
            bodySpan := ⟨bodyStart, cursor.position⟩
            span := ⟨start, after.position⟩ }) reading.siblings.reverse :: before⟩ after

variable {reading reading' : Reading} {cursor after : Cursor}

/-- A step is one of the moves. -/
theorem moves_of_step (moved : reading.step cursor = .ok (reading', after)) :
    Moves reading cursor reading' after := by
  unfold step at moved
  split at moved
  · rename_i markup
    unfold readMarkup at moved
    split at moved
    · rename_i first
      unfold closeElement at moved
      split at moved
      · rename_i tag attributes start before outer inside
        dsimp only at moved
        split at moved
        · cases moved
        · rename_i name
          split at moved
          · cases moved
          · rename_i eaten
            cases moved
            exact .closeElement markup first inside (Decidable.not_not.mp name).symm eaten
      · cases moved
    · rename_i opening first
      unfold closeBlock at moved
      repeat' split at moved
      · cases moved
      · cases moved
      · cases moved
      · rename_i inside _ _ _ path name _ _ close
        cases moved
        exact .closeBlock markup first inside path (Decidable.not_not.mp name) close
      · cases moved
    · cases moved
    · rename_i form first
      simp only [readComment] at moved
      split at moved
      · cases moved
      · rename_i past
        cases moved
        exact .comment markup first past
    · rename_i opening first
      unfold openBlock at moved
      split at moved
      · cases moved
      · rename_i call
        cases moved
        exact .enterBlock markup first call
    · cases moved
    · rename_i first
      unfold readMustache at moved
      split at moved
      · cases moved
      · rename_i found
        cases moved
        exact .mustache markup first found
    · rename_i first
      simp only [openElement] at moved
      split at moved
      · cases moved
      · rename_i attributes closing behind found
        split at moved
        · rename_i whole
          cases moved
          exact .lone markup first rfl found whole
        · rename_i ordinary
          cases moved
          simp only [Bool.or_eq_true, not_or, Bool.not_eq_true] at ordinary
          obtain ⟨rfl, ordinary⟩ := ordinary
          exact .enterElement markup first rfl found ordinary
  · rename_i plain
    cases moved
    exact .text (by simpa using plain)

/-- Every move is a step. -/
theorem step_of_moves (moves : Moves reading cursor reading' after) :
    reading.step cursor = .ok (reading', after) := by
  unfold step
  cases moves with
  | text plain =>
    rw [if_neg (by simp [plain])]
  | mustache markup first found =>
    rw [if_pos markup, readMarkup, first]
    simp only [readMustache, found]
  | comment markup first found =>
    rw [if_pos markup, readMarkup, first]
    simp only [readComment, found]
  | lone markup first name found whole =>
    subst name
    rw [if_pos markup, readMarkup, first]
    unfold tagBehind behindTag tagBehind at found
    unfold tagBehind at whole
    simp only [openElement, found, whole, if_true, tagBehind]
  | enterElement markup first name found ordinary =>
    subst name
    rw [if_pos markup, readMarkup, first]
    unfold tagBehind behindTag tagBehind at found
    unfold tagBehind at ordinary
    simp only [openElement, found, ordinary, Bool.or_self, Bool.false_eq_true, if_false, tagBehind]
  | closeElement markup first inside name found =>
    subst name
    rw [if_pos markup, readMarkup, first]
    unfold behindTag tagBehind at found
    simp only [closeElement, inside, tagBehind, ne_eq, not_true_eq_false, if_false, found]
  | enterBlock markup first found =>
    rw [if_pos markup, readMarkup, first]
    simp only [openBlock, found]
  | closeBlock markup first inside found name closed =>
    rw [if_pos markup, readMarkup, first]
    simp only [closeBlock, inside, found, name, ne_eq, not_true_eq_false, if_false, closed]

theorem run_of_step (filled : cursor.rest ≠ []) (moved : reading.step cursor = .ok (reading', after)) :
    reading.run cursor = reading'.run after := by
  rw [run_eq, if_neg filled, moved]

theorem run_of_moves (filled : cursor.rest ≠ []) (moves : Moves reading cursor reading' after) :
    reading.run cursor = reading'.run after := run_of_step filled (step_of_moves moves)

/-- A run that succeeds before its end begins with a move. -/
theorem exists_moves_of_run {result : List Tree × Cursor} (filled : cursor.rest ≠ [])
    (ran : reading.run cursor = .ok result) :
    ∃ reading' after, Moves reading cursor reading' after ∧ reading'.run after = .ok result := by
  rw [run_eq, if_neg filled] at ran
  split at ran
  · cases ran
  · rename_i step
    exact ⟨_, _, moves_of_step step, ran⟩

/-- How many blocks are open. -/
def depth (reading : Reading) : Nat := reading.branches.countP fun branch => branch.opening.isBlock

theorem depth_enter (opening : Opening) :
    (reading.enter opening).depth = reading.depth + if opening.isBlock then 1 else 0 := by
  simp [depth, enter, List.countP_cons]

theorem depth_close {opening : Opening} {before : List Tree} {outer : List OpenBranch}
    (tree : Tree) (inside : reading.branches = ⟨opening, before⟩ :: outer) :
    depth ⟨outer, tree :: before⟩ + (if opening.isBlock then 1 else 0) = reading.depth := by
  simp [depth, inside, List.countP_cons]

end Tree.Reading

end LayoutMarkup
