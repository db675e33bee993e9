import LayoutMarkup.Proofs.Template.KeepingUp

/-! Templates that are printed as they were printed. Printing what was read brings a source into one
form; reading this form and printing it again changes nothing exactly if the template is reprintable. -/

namespace LayoutMarkup

/-- Whether a leaf is written as before, be it as an end of a block. -/
def Leaf.isRewritten : Leaf → Bool
  | .mustache call =>
    !(['e', 'l', 's', 'e'].isPrefixOf call.path.name.toList) && call.meets .unescaped
  | _ => true

/-- How many ends of blocks a leaf is taken for. -/
def Leaf.slashes : Leaf → Nat
  | .mustache call => if ['/'].isPrefixOf call.path.name.toList then 1 else 0
  | _ => 0

namespace Tree

mutual

def slashes : Tree → Nat
  | .leaf content => content.slashes
  | .branch _ trees => slashesAll trees

def slashesAll : List Tree → Nat
  | [] => 0
  | tree :: trees => tree.slashes + slashesAll trees

end

theorem isReprintable_of_slashes {content : Leaf} (same : content.isRewritten = true)
    (unclosed : content.slashes = 0) : content.isReprintable = true := by
  cases content with
  | text literal => rfl
  | mustache call =>
    simp only [Leaf.isRewritten, Bool.and_eq_true, Bool.not_eq_true'] at same
    have slash : ['/'].isPrefixOf call.path.name.toList = false := by
      rw [← Bool.not_eq_true]
      intro slash
      simp [Leaf.slashes, slash] at unclosed
    simp only [Leaf.isReprintable, startsMark, slash, same]
    rfl
  | comment remark => rfl

mutual

theorem each_of_slashes : ∀ tree : Tree,
    tree.each Leaf.isRewritten Head.isReprintable = true → tree.slashes = 0 →
      tree.each Leaf.isReprintable Head.isReprintable = true
  | .leaf _, same, unclosed => isReprintable_of_slashes same unclosed
  | .branch head trees, same, unclosed => by
    simp only [each, Bool.and_eq_true] at same ⊢
    exact ⟨same.1, eachAll_of_slashes trees same.2 unclosed⟩

theorem eachAll_of_slashes : ∀ trees : List Tree,
    eachAll Leaf.isRewritten Head.isReprintable trees = true → slashesAll trees = 0 →
      eachAll Leaf.isReprintable Head.isReprintable trees = true
  | [], _, _ => rfl
  | tree :: trees, same, unclosed => by
    simp only [eachAll, Bool.and_eq_true] at same ⊢
    simp only [slashesAll, Nat.add_eq_zero_iff] at unclosed
    exact ⟨each_of_slashes tree same.1 unclosed.1, eachAll_of_slashes trees same.2 unclosed.2⟩

end

namespace Reading

theorem goesOn_leaf {reading : Reading} {cursor : Cursor} {content : Leaf} {tail : List Char}
    (keeps : reading.KeepsUp cursor) (read : content.IsRead (Front.of tail))
    (shape : cursor.rest = content.write ++ tail) :
    content.isRewritten = true ∧ reading.GoesOn tail content.slashes := by
  cases content with
  | text literal => exact ⟨rfl, goesOn_text keeps read shape⟩
  | comment remark => exact ⟨rfl, goesOn_comment keeps read shape⟩
  | mustache call =>
    have other := not_else_of_keepsUp keeps shape
    simp only [Leaf.isRewritten, Leaf.slashes, other]
    by_cases slash : ['/'].isPrefixOf call.path.name.toList = true
    · obtain ⟨same, goes⟩ := goesOn_slash keeps read slash shape
      simpa [slash, same] using goes
    · rw [Bool.not_eq_true] at slash
      have plain : startsMark call.path.name.toList = false := by
        rw [startsMark, slash, other]
        rfl
      obtain ⟨same, goes⟩ := goesOn_mustache keeps read plain shape
      simpa [slash, same] using goes

mutual

/-- Over a tree a reading goes on keeping up, and the tree is reprintable but for the ends of blocks. -/
theorem goesOn_write : ∀ (tree : Tree) (reading : Reading) (cursor : Cursor) (tail : List Char),
    reading.KeepsUp cursor → tree.IsRead (Front.of tail) → cursor.rest = tree.write ++ tail →
      tree.each Leaf.isRewritten Head.isReprintable = true ∧ reading.GoesOn tail tree.slashes
  | .leaf _, _, _, _, keeps, read, shape => goesOn_leaf keeps read shape
  | .branch (.program _) _, _, _, _, _, read, _ => read.1.elim
  | .branch (.element element) trees, reading, cursor, tail, keeps, ⟨legal, lone, below⟩, shape => by
    by_cases whole : (element.selfClosing || isVoidTag element.tag) = true
    · obtain rfl := lone whole
      have start : cursor.rest = element.writeStart ++ tail := by
        simpa [write, Head.write, whole] using shape
      obtain ⟨same, goes⟩ := goesOn_startTag keeps legal start
      exact ⟨by simpa [each, eachAll, Head.isReprintable] using same, goes⟩
    · rw [Bool.not_eq_true, Bool.or_eq_false_iff] at whole
      have start : cursor.rest =
          element.writeStart ++ (writeAll trees ++ (element.writeEnd ++ tail)) := by
        simpa [write, Head.write, whole] using shape
      obtain ⟨same, goes⟩ := goesOn_startTag keeps legal start
      obtain ⟨inside, after, entered, left, opened⟩ := goes
      have below' : AllRead trees (Front.of (element.writeEnd ++ tail)) := by
        rw [front_writeEnd]
        exact below
      obtain ⟨sames, behind, last, grown, left', lost⟩ :=
        goesOn_writeAll trees inside after _ entered below' left
      obtain ⟨outside, final, done, ended, closed⟩ := goesOn_endTag grown legal.joined left'
      refine ⟨by simpa [each, Head.isReprintable, sames] using same,
        outside, final, done, ended, ?_⟩
      simp only [slashes]
      omega
  | .branch (.block block) trees, reading, cursor, tail, keeps, ⟨met, _, below⟩, shape => by
    have start : cursor.rest =
        block.writeStart ++ (writeAll trees ++ (block.writeEnd ++ tail)) := by
      simpa [write, Head.write] using shape
    obtain ⟨same, inside, after, entered, left, opened⟩ := keepsUp_blockStart keeps met start
    have below' : AllRead trees (Front.of (block.writeEnd ++ tail)) := by
      rw [front_writeBlockEnd]
      exact below
    obtain ⟨sames, behind, last, grown, left', lost⟩ :=
      goesOn_writeAll trees inside after _ entered below' left
    have legible := Call.meets_of_implies Demands.asRead_implies_legible block.call met
    obtain ⟨outside, final, done, ended, closed⟩ :=
      goesOn_blockEnd grown (Call.Reading.isName_of_meets legible) left'
    refine ⟨by simp [each, Head.isReprintable, sames, same], outside, final, done, ended, ?_⟩
    simp only [slashes]
    omega

theorem goesOn_writeAll : ∀ (trees : List Tree) (reading : Reading) (cursor : Cursor)
    (tail : List Char), reading.KeepsUp cursor → AllRead trees (Front.of tail) →
      cursor.rest = writeAll trees ++ tail →
      eachAll Leaf.isRewritten Head.isReprintable trees = true ∧
        reading.GoesOn tail (slashesAll trees)
  | [], reading, cursor, _, keeps, _, shape => ⟨rfl, reading, cursor, keeps, shape, rfl⟩
  | tree :: trees, reading, cursor, tail, keeps, ⟨first, others⟩, shape => by
    rw [writeAll, List.append_assoc] at shape
    rw [← front_writeAll others] at first
    obtain ⟨same, between, after, grown, left, lost⟩ :=
      goesOn_write tree reading cursor _ keeps first shape
    obtain ⟨sames, behind, last, done, left', lost'⟩ :=
      goesOn_writeAll trees between after tail grown others left
    refine ⟨by simp [eachAll, same, sames], behind, last, done, left', ?_⟩
    simp only [slashesAll]
    omega

end

end Reading

/-- If the written form of trees is read as trees with the same written form, they are reprintable. -/
theorem isReprintable_of_read {trees again : List Tree} {cursor : Cursor}
    (legal : AllRead trees .stop)
    (found : Tree.read (String.ofList (writeAll trees)) = .ok (again, cursor))
    (same : writeAll again = writeAll trees) :
    eachAll Leaf.isReprintable Head.isReprintable trees = true := by
  have whole : (Cursor.ofString (String.ofList (writeAll trees))).rest = writeAll trees ++ [] := by
    simp [Cursor.ofString]
  have keeps : Reading.start.KeepsUp (.ofString (String.ofList (writeAll trees))) := by
    refine ⟨Reading.isRead_start _, again, cursor, found, ?_⟩
    rw [whole, List.append_nil]
    exact same
  obtain ⟨sames, reading', after, -, -, lost⟩ :=
    Reading.goesOn_writeAll trees _ _ [] keeps legal whole
  have none : Reading.start.depth = 0 := rfl
  exact eachAll_of_slashes trees sames (by omega)

end Tree

namespace Template

/-- What was read and printed can be read, and is printed as before, exactly if it is reprintable. -/
theorem print_read_print_iff {source : String} {template : Template}
    (found : read source = .ok template) :
    (∃ text again, template.print = some text ∧ read text = .ok again ∧ again.print = some text) ↔
      template.isReprintable = true := by
  obtain ⟨trees, cursor, finished, rfl⟩ := exists_trees_of_read found
  have legal := Tree.allRead_of_read finished
  rw [isReprintable, all_each_ofTrees, print_ofTrees]
  simp only [Head.isReprintable, Bool.true_and]
  constructor
  · rintro ⟨text, again, printed, reread, reprinted⟩
    obtain ⟨trees', last, finished', rfl⟩ := exists_trees_of_read reread
    rw [print_ofTrees] at reprinted
    cases printed
    refine Tree.isReprintable_of_read legal finished' ?_
    exact String.ofList_injective (Option.some.inj reprinted)
  · intro same
    have keeps := Tree.eachAll_mono (fun _ => Leaf.keepsKind_of_isReprintable)
      (fun _ => Head.keepsKind_of_isReprintable) trees same
    obtain ⟨again, last, reread, kept⟩ := Tree.read_writeAll legal keeps
    refine ⟨_, ofTrees again ⟨.start, last.position⟩, rfl, ?_, ?_⟩
    · rw [read, reread]
    · rw [print_ofTrees, ← Tree.writeAll_withoutSpans, kept, Tree.writeAll_reread trees .stop legal same]

/-- A name in an unquoted value becomes a mustache and stays as printed, but one that does not end
takes the quote for the start of a string, so that what is printed cannot be read. -/
theorem print_read_print_of_unquoted_value :
    (∃ template text again, read "<p x=a{{b}}></p>" = .ok template ∧
      template.print = some text ∧ read text = .ok again ∧ again.print = some text) ∧
    ∃ template, read "<p x=a\x7b\x7bb></p>" = .ok template ∧
      ¬ ∃ text again, template.print = some text ∧ read text = .ok again ∧
        again.print = some text := by
  have ended : (match read "<p x=a{{b}}></p>" with
      | .ok template => template.isReprintable
      | .error _ => false) = true := by decide +kernel
  have unended : (match read "<p x=a\x7b\x7bb></p>" with
      | .ok template => !template.isReprintable
      | .error _ => false) = true := by decide +kernel
  constructor
  · split at ended
    · rename_i template found
      obtain ⟨text, again, facts⟩ := (print_read_print_iff found).mpr ended
      exact ⟨template, text, again, found, facts⟩
    · cases ended
  · split at unended
    · rename_i template found
      refine ⟨template, found, fun same => ?_⟩
      rw [(print_read_print_iff found).mp same] at unended
      cases unended
    · cases unended

end Template

end LayoutMarkup
