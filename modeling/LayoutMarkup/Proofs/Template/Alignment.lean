import LayoutMarkup.Proofs.Template.TagRewriting

/-! Trees that are rewritten as they were. What a reading has taken in has a written form, which only
grows. If at the end this is the text that was read, it has kept up with the text all the way, and so
every node is reprintable. A mustache that is taken for the end of a block leaves one block less open,
which no later piece makes good. -/

namespace LayoutMarkup

def Opening.write : Opening → List Char
  | .element tag attributes _ => Element.writeStart ⟨tag, attributes, false, .nowhere⟩
  | .block call _ _ => ['{', '{', '#'] ++ call.write ++ ['}', '}']

namespace Tree.Reading

/-- The written form of all that has been read. -/
def written (reading : Reading) : List Char :=
  (reading.branches.reverse.flatMap fun branch =>
    writeAll branch.before.reverse ++ branch.opening.write) ++ writeAll reading.siblings.reverse

variable {reading reading' : Reading} {cursor after : Cursor}

theorem written_push (tree : Tree) : (reading.push tree).written = reading.written ++ tree.write := by
  simp [written, push, writeAll_append, writeAll]

theorem written_enter (opening : Opening) :
    (reading.enter opening).written = reading.written ++ opening.write := by
  simp [written, enter, writeAll]

/-- Closing a branch adds what is written behind its children. -/
theorem written_close {opening : Opening} {before : List Tree} {outer : List OpenBranch}
    {head : Head} {ending : List Char}
    (inside : reading.branches = ⟨opening, before⟩ :: outer)
    (form : ∀ childless content, head.write childless content = opening.write ++ content ++ ending) :
    written ⟨outer, .branch head reading.siblings.reverse :: before⟩ = reading.written ++ ending := by
  simp [written, inside, writeAll_append, writeAll, write, form]

theorem written_closeElement {tag : String} {attributes : List Attribute} {start : Position}
    {before : List Tree} {outer : List OpenBranch} (span : Span)
    (inside : reading.branches = ⟨.element tag attributes start, before⟩ :: outer)
    (ordinary : isVoidTag tag = false) :
    written ⟨outer, .branch (.element ⟨tag, attributes, false, span⟩) reading.siblings.reverse ::
      before⟩ = reading.written ++ (['<', '/'] ++ tag.toList ++ ['>']) := by
  apply written_close inside
  intro childless content
  simp only [Head.write, ordinary, Bool.and_false, Bool.or_self, Bool.false_eq_true, if_false]
  rfl

theorem written_closeBlock {call : Call} {start bodyStart : Position} {before : List Tree}
    {outer : List OpenBranch} (bodySpan span : Span)
    (inside : reading.branches = ⟨.block call start bodyStart, before⟩ :: outer) :
    written ⟨outer, .branch (.block ⟨call.path, call.params, call.hash, bodySpan, span⟩)
      reading.siblings.reverse :: before⟩ =
        reading.written ++ (['{', '{', '/'] ++ call.path.name.toList ++ ['}', '}']) := by
  apply written_close inside
  intro childless content
  obtain ⟨path, params, hash, span⟩ := call
  simp [Head.write, Opening.write, Block.writeStart, Block.writeEnd, Call.write]

/-- What one piece of the source adds to the written form. -/
theorem exists_written_of_moves (read : reading.IsRead cursor.rest)
    (moves : Moves reading cursor reading' after) :
    ∃ piece, reading'.written = reading.written ++ piece := by
  cases moves with
  | text => exact ⟨_, written_push _⟩
  | mustache => exact ⟨_, written_push _⟩
  | comment => exact ⟨_, written_push _⟩
  | lone => exact ⟨_, written_push _⟩
  | enterElement => exact ⟨_, written_enter _⟩
  | closeElement markup first inside name found =>
    have legal := read.openings _ (inside ▸ List.mem_cons_self)
    exact ⟨_, written_closeElement _ inside legal.2⟩
  | enterBlock => exact ⟨_, written_enter _⟩
  | closeBlock markup first inside found name closed =>
    exact ⟨_, written_closeBlock _ _ inside⟩

/-- What has been read is written at the front of all that will have been read. -/
theorem written_prefix_of_run {trees : List Tree} (read : reading.IsRead cursor.rest)
    (found : reading.run cursor = .ok (trees, after)) : reading.written <+: writeAll trees := by
  fun_induction run reading cursor with
  | case1 reading cursor ended closed =>
    obtain ⟨rfl, -⟩ := Prod.mk.inj (Except.ok.inj found)
    simp [written, closed]
  | case2 => cases found
  | case3 => cases found
  | case4 reading cursor filled next behind step ih =>
    have moves := moves_of_step step
    obtain ⟨piece, added⟩ := exists_written_of_moves read moves
    have grown := ih (isRead_of_moves read filled moves) found
    rw [added] at grown
    exact (List.prefix_append _ _).trans grown

/-- A reading that has kept up: it ends with trees whose written form is that of what was read so far
and then the text that is left. -/
structure KeepsUp (reading : Reading) (cursor : Cursor) : Prop where
  read : reading.IsRead cursor.rest
  ends : ∃ trees last, reading.run cursor = .ok (trees, last) ∧
    writeAll trees = reading.written ++ cursor.rest

theorem exists_moves_of_keepsUp (keeps : reading.KeepsUp cursor) (filled : cursor.rest ≠ []) :
    ∃ reading' after, Moves reading cursor reading' after := by
  obtain ⟨trees, last, ran, -⟩ := keeps.ends
  obtain ⟨reading', after, moves, -⟩ := exists_moves_of_run filled ran
  exact ⟨reading', after, moves⟩

/-- What a move adds to the written form stands in the text; if this was all that was read, the reading
still keeps up. -/
theorem rest_of_keepsUp {piece : List Char} (keeps : reading.KeepsUp cursor)
    (filled : cursor.rest ≠ []) (moves : Moves reading cursor reading' after)
    (added : reading'.written = reading.written ++ piece) :
    ∃ rest, cursor.rest = piece ++ rest ∧ (after.rest = rest → reading'.KeepsUp after) := by
  obtain ⟨trees, last, ran, whole⟩ := keeps.ends
  have read := isRead_of_moves keeps.read filled moves
  rw [run_of_moves filled moves] at ran
  obtain ⟨rest, grown⟩ := written_prefix_of_run read ran
  rw [added, whole, List.append_assoc] at grown
  refine ⟨rest, (List.append_cancel_left grown).symm, fun left => ⟨read, trees, last, ran, ?_⟩⟩
  rw [whole, added, left, List.append_assoc, List.append_cancel_left grown]

end Tree.Reading

end LayoutMarkup
