import LayoutMarkup.Proofs.Source.Passes
import Mathlib.Data.List.DropRight

/-! Where in a source a cursor stands. What is left, the number of bytes left, the line and the column
all speak of one place between two characters of the source, and passing a text leads to the place
behind it. -/

namespace LayoutMarkup

/-- Lines are counted by the line feeds of a text, columns by what comes behind the last of them. -/
theorem Position.after_start (text : List Char) :
    Position.start.after text = ⟨1 + text.count '\n', (text.rtakeWhile (· ≠ '\n')).length⟩ := by
  induction text using List.reverseRecOn with
  | nil => rfl
  | append_singleton text c ih =>
    rw [after_append, ih, after_cons, after_nil, next, List.rtakeWhile_concat]
    by_cases feed : c = '\n'
    · simp [feed, Nat.add_assoc]
    · simp [feed]

/-- A text within a line moves a place on by as many columns as it has characters. -/
theorem Position.after_within_line (position : Position) {text : List Char} (within : '\n' ∉ text) :
    position.after text = ⟨position.line, position.column + text.length⟩ := by
  induction text generalizing position with
  | nil => rfl
  | cons c text ih =>
    obtain ⟨other, rest⟩ := List.ne_and_not_mem_of_not_mem_cons within
    rw [after_cons, ih _ rest, next, if_neg (Ne.symm other), List.length_cons]
    simp only [Position.mk.injEq, true_and]
    omega

namespace Cursor

/-- A cursor that stands at a place of a source: what the cursor tells is right of the text in front of
the place and the text behind it. -/
structure StandsAt (cursor : Cursor) {source : String} (place : source.Pos) : Prop where
  rest : (source.sliceFrom place).copy = String.ofList cursor.rest
  bytes : place.offset.byteIdx + cursor.bytesLeft = source.utf8ByteSize
  line : cursor.position.line = 1 + (source.sliceTo place).copy.toList.count '\n'
  column : cursor.position.column =
    ((source.sliceTo place).copy.toList.rtakeWhile (· ≠ '\n')).length

variable {cursor after : Cursor} {source : String} {place : source.Pos} {consumed text : List Char}

theorem bytesLeft_eq (cursor : Cursor) :
    cursor.bytesLeft = (String.ofList cursor.rest).utf8ByteSize := by
  unfold bytesLeft
  induction cursor.rest with
  | nil => rfl
  | cons c rest ih => simp [ih]

/-- What has been passed since the start of a source ends at a place of the source. -/
theorem exists_splits_of_passes (passed : (ofString source).Passes consumed cursor) :
    ∃ place : source.Pos, place.Splits (String.ofList consumed) (String.ofList cursor.rest) := by
  have whole : source = String.ofList consumed ++ String.ofList cursor.rest := by
    rw [← String.ofList_append, ← passed.rest]
    exact String.ofList_toList.symm
  exact ⟨_, String.Pos.splits_ofEqAppend whole⟩

theorem standsAt_of_splits (passed : (ofString source).Passes consumed cursor)
    (splits : place.Splits (String.ofList consumed) (String.ofList cursor.rest)) :
    cursor.StandsAt place := by
  have front : (source.sliceTo place).copy.toList = consumed := by
    rw [splits.copy_sliceTo_eq, String.toList_ofList]
  have reached : cursor.position = Position.start.after consumed := passed.position
  rw [Position.after_start] at reached
  refine ⟨splits.copy_sliceFrom_eq, ?_, ?_, ?_⟩
  · have whole := congrArg String.utf8ByteSize splits.eq_append
    rw [String.utf8ByteSize_append] at whole
    rw [bytesLeft_eq, splits.offset_eq_rawEndPos]
    exact whole.symm
  · rw [front, reached]
  · rw [front, reached]

/-- A text that is passed lies in the source between the places where the cursor stood and stands. -/
theorem exists_slice_of_passes (passed : (ofString source).Passes consumed cursor)
    (onward : cursor.Passes text after) :
    ∃ (place later : source.Pos) (ordered : place ≤ later),
      cursor.StandsAt place ∧ after.StandsAt later ∧
        (source.slice place later ordered).copy = String.ofList text := by
  obtain ⟨place, splits⟩ := exists_splits_of_passes passed
  obtain ⟨later, behind⟩ := exists_splits_of_passes (passed.trans onward)
  have between : ∃ ordered : place ≤ later,
      (source.slice place later ordered).copy = String.ofList text := by
    apply String.copy_slice_eq_iff_splits.mpr
    refine ⟨String.ofList consumed, String.ofList after.rest, ?_, ?_⟩
    · rwa [← String.ofList_append, ← onward.rest]
    · rwa [← String.ofList_append]
  obtain ⟨ordered, slice⟩ := between
  exact ⟨place, later, ordered, standsAt_of_splits passed splits,
    standsAt_of_splits (passed.trans onward) behind, slice⟩

end Cursor

end LayoutMarkup
