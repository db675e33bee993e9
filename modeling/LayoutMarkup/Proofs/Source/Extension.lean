import LayoutMarkup.Proofs.Source.Passes

/-! Cursors into text that goes on. More text behind the rest of a cursor changes no decision that was
made by what is in front of it: a run that stopped stops there again, and a search that found something
finds it again. -/

namespace LayoutMarkup

section

variable {text pattern : List Char}

/-- Whether a longer pattern begins a text shows in the text if this holds a character that the pattern
does not hold. -/
theorem isPrefixOf_append_of_mem {c : Char} (inside : c ∈ text) (outside : c ∉ pattern)
    (more : List Char) : pattern.isPrefixOf (text ++ more) = pattern.isPrefixOf text := by
  rw [Bool.eq_iff_iff, List.isPrefixOf_iff_prefix, List.isPrefixOf_iff_prefix]
  constructor
  · intro front
    rcases List.prefix_or_prefix_of_prefix front (List.prefix_append text more) with within | short
    · exact within
    · exact absurd (short.subset inside) outside
  · exact fun front => front.trans (List.prefix_append text more)

/-- A single character shows in every text that is not empty. -/
theorem isPrefixOf_append_of_ne_nil (c : Char) (filled : text ≠ []) (more : List Char) :
    [c].isPrefixOf (text ++ more) = [c].isPrefixOf text := by
  cases text with
  | nil => exact absurd rfl filled
  | cons d rest => rfl

theorem takeWhile_more {member : Char → Bool}
    (left : text.drop (text.takeWhile member).length ≠ []) (more : List Char) :
    (text ++ more).takeWhile member = text.takeWhile member := by
  rw [List.takeWhile_append, if_neg]
  intro whole
  exact left (by rw [whole, List.drop_length])

/-- What was found is found again when more text follows. -/
theorem firstOccurrence_more {count : Nat} (found : firstOccurrence pattern text = some count)
    (more : List Char) : firstOccurrence pattern (text ++ more) = some count := by
  obtain ⟨behind, shape⟩ := prefix_of_firstOccurrence found
  have whole : text = text.take count ++ (pattern ++ behind) := by rw [shape, List.take_append_drop]
  have again := firstOccurrence_take found (behind ++ more)
  rwa [← List.append_assoc pattern, ← List.append_assoc, ← whole] at again

end

namespace Cursor

/-- A cursor at the same place with more text behind its rest. -/
def extend (cursor : Cursor) (more : List Char) : Cursor := ⟨cursor.rest ++ more, cursor.position⟩

variable {cursor after : Cursor} {text : List Char} {member : Char → Bool} {count : Nat}

theorem skip_extend (bound : count ≤ cursor.rest.length) (more : List Char) :
    (cursor.extend more).skip count = (cursor.skip count).extend more := by
  simp only [skip, extend, List.drop_append_of_le_length bound, List.take_append_of_le_length bound]

theorem le_of_left (left : (cursor.skip count).rest ≠ []) : count ≤ cursor.rest.length := by
  by_contra beyond
  exact left (List.drop_eq_nil_of_le (Nat.le_of_not_le beyond))

theorem skip_extend_of_left (left : (cursor.skip count).rest ≠ []) (more : List Char) :
    (cursor.extend more).skip count = (cursor.skip count).extend more :=
  skip_extend (le_of_left left) more

/-- Whoever passes something that is left has something left before. -/
theorem Reaches.left (reached : cursor.Reaches after) (left : after.rest ≠ []) : cursor.rest ≠ [] := by
  obtain ⟨text, passed⟩ := reached
  rw [passed.rest]
  exact List.append_ne_nil_of_right_ne_nil text left

/-- What is left was there before. -/
theorem Reaches.subset (reached : cursor.Reaches after) : after.rest ⊆ cursor.rest := by
  obtain ⟨text, passed⟩ := reached
  rw [passed.rest]
  exact List.subset_append_right text after.rest

theorem run_extend (left : (cursor.skipRun member).rest ≠ []) (more : List Char) :
    (cursor.extend more).run member = cursor.run member := takeWhile_more left more

theorem skipRun_extend (left : (cursor.skipRun member).rest ≠ []) (more : List Char) :
    (cursor.extend more).skipRun member = (cursor.skipRun member).extend more := by
  rw [skipRun, run_extend left more]
  exact skip_extend_of_left left more

theorem skipBlank_extend (left : cursor.skipBlank.rest ≠ []) (more : List Char) :
    (cursor.extend more).skipBlank = cursor.skipBlank.extend more := skipRun_extend left more

theorem sees_extend (c : Char) (filled : cursor.rest ≠ []) (more : List Char) :
    (cursor.extend more).sees [c] = cursor.sees [c] := isPrefixOf_append_of_ne_nil c filled more

theorem sees_extend_of_sees (seen : cursor.sees text = true) (more : List Char) :
    (cursor.extend more).sees text = true :=
  sees_iff.mpr ((sees_iff.mp seen).trans (List.prefix_append _ _))

theorem mem_of_sees {c : Char} (seen : cursor.sees text = true) (inside : c ∈ text) : c ∈ cursor.rest :=
  (sees_iff.mp seen).subset inside

/-- Whether a single character is eaten is decided by what is there. -/
theorem eat?_extend (c : Char) (filled : cursor.rest ≠ []) (more : List Char) :
    (cursor.extend more).eat? [c] = (cursor.eat? [c]).map (extend · more) := by
  unfold eat?
  rw [sees_extend c filled more]
  split
  · rename_i seen
    rw [skip_extend (length_le_of_sees seen) more, Option.map_some]
  · rfl

theorem skipGap_eq (cursor : Cursor) :
    cursor.skipGap = (cursor.skipBlank.eat? ['~']).getD cursor.skipBlank := rfl

theorem skipGap_extend (left : cursor.skipGap.rest ≠ []) (more : List Char) :
    (cursor.extend more).skipGap = cursor.skipGap.extend more := by
  have reached : cursor.skipBlank.Reaches cursor.skipGap := by
    rw [skipGap_eq]
    cases eaten : cursor.skipBlank.eat? ['~'] with
    | none => exact ⟨[], Passes.refl _⟩
    | some after => exact ⟨_, passes_of_eat? eaten⟩
  have blank := reached.left left
  rw [skipGap_eq, skipGap_eq, skipBlank_extend blank more, eat?_extend '~' blank more]
  cases cursor.skipBlank.eat? ['~'] <;> rfl

theorem pastTerminator?_extend {terminator value : List Char}
    (found : cursor.pastTerminator? terminator = some (value, after)) (more : List Char) :
    (cursor.extend more).pastTerminator? terminator = some (value, after.extend more) := by
  simp only [pastTerminator?, Option.map_eq_some_iff, Prod.mk.injEq] at found ⊢
  obtain ⟨count, occurs, rfl, rfl⟩ := found
  refine ⟨count, firstOccurrence_more occurs more, ?_, ?_⟩
  · exact List.take_append_of_le_length (firstOccurrence_le occurs)
  · apply skip_extend
    have within := (prefix_of_firstOccurrence occurs).length_le
    have bound := firstOccurrence_le occurs
    rw [List.length_drop] at within
    omega

end Cursor

end LayoutMarkup
