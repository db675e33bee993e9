import LayoutMarkup.Proofs.Call.WhitespaceControl
import LayoutMarkup.Proofs.Template.Relocation
import LayoutMarkup.Proofs.Template.Storage

/-! Whitespace control in mustaches. A mustache with a `~` inside its braces is read as the mustache that
it is without, unless its text begins with a blank: blanks are skipped before a `~` and not behind it. -/

namespace LayoutMarkup

def Tree.isBranch : Tree → Bool
  | .leaf _ => false
  | .branch .. => true

namespace Tree.Reading

variable {reading reading' : Reading} {cursor after : Cursor} {trees : List Tree} {last : Cursor}

/-- There is a branch already, or there will be one. -/
def HasBranch (reading : Reading) : Prop :=
  reading.branches ≠ [] ∨ ∃ tree ∈ reading.siblings, tree.isBranch = true

theorem HasBranch.push (has : reading.HasBranch) (tree : Tree) : (reading.push tree).HasBranch :=
  has.imp id fun ⟨own, member, holds⟩ => ⟨own, List.mem_cons_of_mem tree member, holds⟩

theorem HasBranch.of_moves (has : reading.HasBranch) (moves : Moves reading cursor reading' after) :
    reading'.HasBranch := by
  cases moves with
  | text plain => exact has.push _
  | mustache markup first found => exact has.push _
  | comment markup first found => exact has.push _
  | lone markup first name found whole => exact has.push _
  | enterElement markup first name found ordinary => exact .inl (List.cons_ne_nil _ _)
  | enterBlock markup first found => exact .inl (List.cons_ne_nil _ _)
  | closeElement markup first inside name found => exact .inr ⟨_, List.mem_cons_self, rfl⟩
  | closeBlock markup first inside found name closed => exact .inr ⟨_, List.mem_cons_self, rfl⟩

theorem HasBranch.of_run (has : reading.HasBranch) (ran : reading.run cursor = .ok (trees, last)) :
    ∃ tree ∈ trees, tree.isBranch = true := by
  fun_induction run reading cursor with
  | case1 reading cursor ended closed =>
    cases ran
    obtain ⟨tree, member, holds⟩ := has.resolve_left (not_not_intro closed)
    exact ⟨tree, List.mem_reverse.mpr member, holds⟩
  | case2 => cases ran
  | case3 => cases ran
  | case4 reading cursor filled reading' after step ih => exact ih (has.of_moves (moves_of_step step)) ran

/-- If there is a single tree in the end, then it is the one that was read first, with nothing behind. -/
theorem eq_of_run_push {tree single : Tree} (begun : Position.start.UpTo cursor.position)
    (ran : (start.push tree).run cursor = .ok ([single], last)) : tree = single ∧ cursor.rest = [] := by
  have carries : Position.Carries id := fun _ _ _ => rfl
  have behind : (start.push tree).run cursor =
      relocateResult id (Prod.map (fun trees => [tree].reverse ++ relocateAll id trees) (Cursor.relocate id))
        (start.run cursor) := run_relocate carries [tree] start begun
  rw [ran] at behind
  obtain ⟨⟨others, final⟩, rest, whole⟩ := ok_of_relocateResult behind.symm
  obtain ⟨same, nothing⟩ : tree = single ∧ relocateAll id others = [] := by
    simpa using congrArg Prod.fst whole
  obtain rfl : others = [] := by
    cases others with
    | nil => rfl
    | cons other others => cases nothing
  have covered := coversAll_of_run rest ⟨[], [], rfl, rfl, rfl⟩ cursor.position.after_nil.symm
  exact ⟨same, covered.1⟩

end Tree.Reading

/-! ### Sources with a single mustache -/

theorem startsMustache_of_first {text : List Char} (first : Markup.first text = .mustache) :
    startsMustache text = true := by
  simp only [Markup.first, ite_eq_iff, reduceCtorEq, and_false, false_or, and_true, or_false] at first
  simp only [first]

/-- Braces do not begin a tag. -/
theorem first_ne_startTag {text : List Char} (braces : startsMustache text = true) :
    Markup.first text ≠ .startTag := by
  simp only [Markup.first, ne_eq, ite_eq_iff, reduceCtorEq, and_false, and_true, or_false, braces,
    not_true, not_false_eq_true]

namespace Tree

variable {source : String} {call : Call} {last after : Cursor}

/-- A source with a single mustache is nothing but that. -/
theorem readMustache_of_read (braces : startsMustache source.toList = true)
    (found : Tree.read source = .ok ([.leaf (.mustache call)], last)) :
    Markup.first source.toList = .mustache ∧
      ∃ after, (Cursor.ofString source).readMustache = .ok (call, after) ∧ after.rest = [] := by
  have filled : (Cursor.ofString source).rest ≠ [] := by
    intro nothing
    rw [show source.toList = [] from nothing] at braces
    cases braces
  obtain ⟨reading', after, moves, ran⟩ := Reading.exists_moves_of_run filled found
  have onward : Position.start.UpTo after.position := (Reading.reaches_of_moves moves).upTo
  cases moves with
  | text plain =>
    have markup : startsMarkup source.toList = true := by simp [startsMarkup, braces]
    rw [show startsMarkup source.toList = false from plain] at markup
    cases markup
  | mustache markup first found =>
    obtain ⟨same, nothing⟩ := Reading.eq_of_run_push onward ran
    cases same
    exact ⟨first, _, found, nothing⟩
  | comment markup first found => cases (Reading.eq_of_run_push onward ran).1
  | lone markup first name found whole => exact absurd first (first_ne_startTag braces)
  | enterElement markup first name found ordinary => exact absurd first (first_ne_startTag braces)
  | enterBlock markup first found =>
    obtain ⟨tree, member, holds⟩ := Reading.HasBranch.of_run (.inl (List.cons_ne_nil _ _)) ran
    rw [List.mem_singleton.mp member] at holds
    cases holds
  | closeElement markup first inside name found => cases inside
  | closeBlock markup first inside found name closed => cases inside

theorem step_of_first {reading : Reading} {cursor : Cursor} (first : Markup.first cursor.rest = .mustache) :
    reading.step cursor = reading.readMustache cursor := by
  have markup : startsMarkup cursor.rest = true := by simp [startsMarkup, startsMustache_of_first first]
  rw [Reading.step, if_pos markup, Reading.readMarkup, first]

theorem read_of_readMustache (first : Markup.first source.toList = .mustache)
    (found : (Cursor.ofString source).readMustache = .ok (call, after)) (ended : after.rest = []) :
    Tree.read source = .ok ([.leaf (.mustache call)], after) := by
  have filled : (Cursor.ofString source).rest ≠ [] :=
    Cursor.left_of_lt (Cursor.length_of_readMustache found)
  have step : Reading.start.step (.ofString source) =
      .ok (Reading.start.push (.leaf (.mustache call)), after) := by
    rw [step_of_first first, Reading.readMustache, found]
  rw [Tree.read, Reading.run_of_step filled step, Reading.run_eq, if_pos ended]
  rfl

theorem read_of_refused {fault : Fault} (first : Markup.first source.toList = .mustache)
    (refused : (Cursor.ofString source).readMustache = .error fault) : Tree.read source = .error fault := by
  have filled : (Cursor.ofString source).rest ≠ [] := by
    intro nothing
    rw [show source.toList = [] from nothing] at first
    cases first
  rw [Tree.read, Reading.run_eq, if_neg filled, step_of_first first, Reading.readMustache, refused]

end Tree

namespace Template

/-- Whether there is nothing in a template but one mustache. -/
def isLoneMustache (template : Template) : Bool :=
  match template.children root with
  | [id] =>
    match template.get? id with
    | some (.leaf (.mustache _)) => true
    | _ => false
  | _ => false

theorem exists_loneNode?_of_isLoneMustache {template : Template} (lone : template.isLoneMustache = true) :
    ∃ call, template.loneNode? = some (.leaf (.mustache call)) := by
  unfold isLoneMustache at lone
  split at lone
  · rename_i id single
    split at lone
    · rename_i call found
      exact ⟨call, by rw [loneNode?, single]; exact found⟩
    · cases lone
  · cases lone

theorem exists_tree_of_isLoneMustache {source : String} {template : Template}
    (found : read source = .ok template) (lone : template.isLoneMustache = true) :
    ∃ call last, Tree.read source = .ok ([.leaf (.mustache call)], last) ∧
      template = ofTrees [.leaf (.mustache call)] ⟨.start, last.position⟩ := by
  obtain ⟨trees, last, finished, rfl⟩ := exists_trees_of_read found
  obtain ⟨call, node⟩ := exists_loneNode?_of_isLoneMustache lone
  obtain ⟨tree, id, rfl, shown, here⟩ := exists_tree_of_loneNode? node
  cases tree with
  | leaf content =>
    cases here.symm.trans shown
    exact ⟨call, last, finished, rfl⟩
  | branch head trees =>
    obtain ⟨ids, branch, -⟩ := shown
    cases here.symm.trans branch

/-- A sign behind the braces makes no other markup of a mustache. -/
theorem first_of_sign {c : Char} {text : List Char}
    (first : Markup.first ('{' :: '{' :: c :: text) = .mustache) (other : List Char) :
    Markup.first ('{' :: '{' :: '~' :: c :: other) = .mustache := by
  have slash : c ≠ '/' := by
    rintro rfl
    simp [Markup.first] at first
  have hash : c ≠ '#' := by
    rintro rfl
    simp [Markup.first] at first
  simp [Markup.first, startsMustache, Ne.symm slash, Ne.symm hash]

section

variable {body : String} {template : Template}
  (found : read ("\x7b\x7b" ++ body ++ "\x7d\x7d") = .ok template)

include found

theorem exists_cons_of_read_braces : ∃ c text, body.toList = c :: text := by
  apply List.exists_cons_of_ne_nil
  intro nothing
  obtain rfl : body = "" := String.toList_eq_nil_iff.mp nothing
  have refused : (read "\x7b\x7b\x7d\x7d").toOption.isNone = true := by decide +kernel
  rw [show "\x7b\x7b" ++ "" ++ "\x7d\x7d" = "\x7b\x7b\x7d\x7d" from rfl] at found
  rw [found] at refused
  cases refused

/-- What is between the braces of a mustache does not begin with the sign of another markup, and its call
ends with the last braces. -/
theorem readCall_of_isLoneMustache (lone : template.isLoneMustache = true) :
    Markup.first ('{' :: '{' :: (body.toList ++ ['}', '}'])) = .mustache ∧
      ∃ call span after, Cursor.readCall ⟨body.toList ++ ['}', '}'], ⟨1, 2⟩⟩ .start = .ok (call, after) ∧
        after.rest = [] ∧ template = ofTrees [.leaf (.mustache call)] span := by
  obtain ⟨call, last, finished, rfl⟩ := exists_tree_of_isLoneMustache found lone
  have text : ("\x7b\x7b" ++ body ++ "\x7d\x7d").toList = '{' :: '{' :: (body.toList ++ ['}', '}']) := by
    simp
  have braces : startsMustache ("\x7b\x7b" ++ body ++ "\x7d\x7d").toList = true := by
    simp [text, startsMustache]
  obtain ⟨first, after, mustache, ended⟩ := Tree.readMustache_of_read braces finished
  rw [text] at first
  refine ⟨first, call, _, after, ?_, ended, rfl⟩
  rw [Cursor.ofString, text] at mustache
  exact mustache

end

/-- With signs inside its braces a mustache is still one, and its call is read behind the first sign. -/
theorem readMustache_between_signs {body : String} {c : Char} {text : List Char}
    (shape : body.toList = c :: text)
    (first : Markup.first ('{' :: '{' :: (body.toList ++ ['}', '}'])) = .mustache) :
    Markup.first ("\x7b\x7b~" ++ body ++ "~\x7d\x7d").toList = .mustache ∧
      (Cursor.ofString ("\x7b\x7b~" ++ body ++ "~\x7d\x7d")).readMustache =
        Cursor.readCall ⟨'~' :: c :: (text ++ ['~', '}', '}']), ⟨1, 2⟩⟩ .start := by
  have signed : ("\x7b\x7b~" ++ body ++ "~\x7d\x7d").toList =
      '{' :: '{' :: '~' :: c :: (text ++ ['~', '}', '}']) := by simp [shape]
  rw [shape] at first
  refine ⟨?_, ?_⟩
  · rw [signed]
    exact first_of_sign first _
  · rw [Cursor.ofString, signed]
    rfl

/-- A mustache that is a source of its own gets a `~` inside each of its braces. If its text begins with
anything else than a blank, then that changes nothing but spans. If it begins with a blank, then the mustache
is no longer read, as the blank behind the `~` is taken for a lexeme. -/
theorem read_between_signs_iff {body : String} {template : Template}
    (found : read ("\x7b\x7b" ++ body ++ "\x7d\x7d") = .ok template)
    (lone : template.isLoneMustache = true) (front : body.toList.head? ≠ some '~')
    (back : body.toList.getLast? ≠ some '~') :
    ((∃ other, read ("\x7b\x7b~" ++ body ++ "~\x7d\x7d") = .ok other ∧
        other.withoutSpans = template.withoutSpans) ↔
      ∀ c ∈ body.toList.head?, Unicode.isBlank c = false) ∧
    ∀ c ∈ body.toList.head?, Unicode.isBlank c = true →
      read ("\x7b\x7b~" ++ body ++ "~\x7d\x7d") = .error ⟨.unexpectedCharacter c, ⟨1, 3⟩⟩ := by
  obtain ⟨first, call, span, after, called, ended, rfl⟩ := readCall_of_isLoneMustache found lone
  obtain ⟨c, text, shape⟩ := exists_cons_of_read_braces found
  obtain ⟨mustache, signed⟩ := readMustache_between_signs shape first
  have refused (blank : Unicode.isBlank c = true) :
      read ("\x7b\x7b~" ++ body ++ "~\x7d\x7d") = .error ⟨.unexpectedCharacter c, ⟨1, 3⟩⟩ := by
    rw [Cursor.readCall, Call.Reading.run_eq, Cursor.readLexeme_of_sign_blank rfl blank] at signed
    rw [read, Tree.read_of_refused mustache signed]
    rfl
  have accepted (clear : Unicode.isBlank c = false) :
      ∃ other, read ("\x7b\x7b~" ++ body ++ "~\x7d\x7d") = .ok other ∧
        other.withoutSpans = (ofTrees [.leaf (.mustache call)] span).withoutSpans := by
    have apart : c ≠ '~' := by
      rintro rfl
      exact front (by rw [shape, List.head?_cons])
    have unsigned : ¬ ['~'] <:+ body.toList := by
      rintro ⟨before, whole⟩
      exact back (by rw [← whole, List.getLast?_concat])
    rw [Cursor.readCall, Call.Reading.run_skip_sign rfl clear apart] at signed
    have rest : (Cursor.skip ⟨'~' :: c :: (text ++ ['~', '}', '}']), ⟨1, 2⟩⟩ 1).rest =
        body.toList ++ ['~', '}', '}'] := by simp [Cursor.skip, shape]
    obtain ⟨peer, behind, ran, nothing, same⟩ :=
      Call.Reading.run_of_sign rfl rfl rest unsigned called ended
    have again := Tree.read_of_readMustache mustache (signed.trans ran) nothing
    refine ⟨ofTrees [.leaf (.mustache peer)] ⟨.start, behind.position⟩, by rw [read, again], ?_⟩
    simp only [withoutSpans_ofTrees, Tree.withoutSpansAll, Tree.withoutSpans, Leaf.withoutSpans, same]
  rw [shape, List.head?_cons]
  refine ⟨⟨?_, ?_⟩, ?_⟩
  · rintro ⟨other, again, -⟩ _ ⟨⟩
    rw [← Bool.not_eq_true]
    intro blank
    rw [refused blank] at again
    cases again
  · exact fun clear => accepted (clear c rfl)
  · rintro _ ⟨⟩ blank
    exact refused blank

/-- A blank at the end makes no difference, and one at the front does. -/
theorem read_between_signs_of_blanks :
    (∃ template other, read ("\x7b\x7b" ++ "foo bar=1 " ++ "\x7d\x7d") = .ok template ∧
      read ("\x7b\x7b~" ++ "foo bar=1 " ++ "~\x7d\x7d") = .ok other ∧
      other.withoutSpans = template.withoutSpans) ∧
    ∃ template, read ("\x7b\x7b" ++ " foo" ++ "\x7d\x7d") = .ok template ∧
      template.isLoneMustache = true ∧
      read ("\x7b\x7b~" ++ " foo" ++ "~\x7d\x7d") = .error ⟨.unexpectedCharacter ' ', ⟨1, 3⟩⟩ := by
  have facts : (read ("\x7b\x7b" ++ "foo bar=1 " ++ "\x7d\x7d")).toOption.any isLoneMustache = true ∧
      (read ("\x7b\x7b" ++ " foo" ++ "\x7d\x7d")).toOption.any isLoneMustache = true := by
    decide +kernel
  have plain : "foo bar=1 ".toList = ['f', 'o', 'o', ' ', 'b', 'a', 'r', '=', '1', ' '] := by decide
  have blank : " foo".toList = [' ', 'f', 'o', 'o'] := by decide
  obtain ⟨template, here, alone⟩ := exists_of_any facts.1
  obtain ⟨peer, there, lone⟩ := exists_of_any facts.2
  obtain ⟨accepted, -⟩ := read_between_signs_iff here alone (by simp [plain]) (by simp [plain])
  obtain ⟨-, refused⟩ := read_between_signs_iff there lone (by simp [blank]) (by simp [blank])
  obtain ⟨other, again, same⟩ := accepted.mpr (by rw [plain]; rintro _ ⟨⟩; decide)
  exact ⟨⟨template, other, here, again, same⟩, peer, there, lone,
    refused ' ' (by rw [blank]; rfl) (by decide)⟩

end Template

end LayoutMarkup
