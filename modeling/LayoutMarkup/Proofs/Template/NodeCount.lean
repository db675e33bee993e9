import LayoutMarkup.Proofs.Template.Steps
import LayoutMarkup.Proofs.Template.Storage

/-! How many nodes a source gives. A piece of the source adds one node at most and takes none away: the
opening of a branch counts for the branch, and the closing adds nothing. -/

namespace LayoutMarkup

/-- The nodes of open branches that are known: their own, and those before each of them. -/
def OpenBranch.countAll : List OpenBranch → Nat
  | [] => 0
  | branch :: outer => Tree.countAll branch.before + 1 + countAll outer

namespace Tree.Reading

/-- How many nodes have been read. -/
def size (reading : Reading) : Nat := OpenBranch.countAll reading.branches + countAll reading.siblings

variable {reading reading' : Reading} {cursor after : Cursor}

theorem size_push (reading : Reading) (tree : Tree) :
    (reading.push tree).size = reading.size + tree.count := by
  simp only [size, push, Tree.countAll]
  omega

theorem size_enter (reading : Reading) (opening : Opening) :
    (reading.enter opening).size = reading.size + 1 := by
  simp only [size, enter, OpenBranch.countAll, Tree.countAll]
  omega

/-- A branch that is closed has been counted when it was opened. -/
theorem size_close {opening : Opening} {before : List Tree} {outer : List OpenBranch} (head : Head)
    (inside : reading.branches = ⟨opening, before⟩ :: outer) :
    size ⟨outer, .branch head reading.siblings.reverse :: before⟩ = reading.size := by
  simp only [size, inside, OpenBranch.countAll, Tree.countAll, count, countAll_reverse]
  omega

/-- One piece of a source adds one node or none. -/
theorem size_of_moves (moves : Moves reading cursor reading' after) :
    reading'.size = reading.size ∨ reading'.size = reading.size + 1 := by
  cases moves with
  | text plain => exact .inr (size_push reading _)
  | mustache markup first found => exact .inr (size_push reading _)
  | comment markup first found => exact .inr (size_push reading _)
  | lone markup first name found whole => exact .inr (size_push reading _)
  | enterElement markup first name found ordinary => exact .inr (size_enter reading _)
  | closeElement markup first inside name found => exact .inl (size_close _ inside)
  | enterBlock markup first found => exact .inr (size_enter reading _)
  | closeBlock markup first inside found name closed => exact .inl (size_close _ inside)

/-- What has been read stays, and no more than one node comes from each character that is left. -/
theorem countAll_of_run {trees : List Tree} {last : Cursor}
    (ran : reading.run cursor = .ok (trees, last)) :
    reading.size ≤ countAll trees ∧ countAll trees ≤ reading.size + cursor.rest.length := by
  fun_induction run reading cursor with
  | case1 reading cursor ended closed =>
    cases ran
    simp [size, closed, OpenBranch.countAll, countAll_reverse]
  | case2 => cases ran
  | case3 => cases ran
  | case4 reading cursor filled reading' after moved ih =>
    obtain ⟨kept, bound⟩ := ih ran
    have shorter := length_of_step filled moved
    rcases size_of_moves (moves_of_step moved) with same | more <;> omega

end Tree.Reading

/-- A source gives no more nodes than it has characters, beside the root. -/
theorem Template.size_le_of_read {source : String} {template : Template}
    (found : read source = .ok template) : template.size ≤ source.length + 1 := by
  obtain ⟨trees, cursor, ran, rfl⟩ := exists_trees_of_read found
  obtain ⟨-, bound⟩ := Tree.Reading.countAll_of_run ran
  rw [size_ofTrees]
  simpa [Tree.Reading.size, Tree.Reading.start, OpenBranch.countAll, Tree.countAll, Cursor.ofString,
    String.length_toList] using bound

end LayoutMarkup
