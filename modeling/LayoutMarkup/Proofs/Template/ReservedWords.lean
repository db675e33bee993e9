import LayoutMarkup.Proofs.Call.Legible
import LayoutMarkup.Proofs.Template.NodeCount
import LayoutMarkup.Proofs.Template.Pieces
import LayoutMarkup.Proofs.Template.WhitespaceControl

/-! Words that are reserved. What may be called at the head of a block may be called in a mustache as well,
with the same arguments, unless its name begins with `else`: only the first characters are looked at when
the mark of an else branch is told apart, and not where the word ends. -/

namespace LayoutMarkup

open Lexeme

theorem IsGap.brace_not_mem {gap : List Char} (isGap : IsGap gap) : '{' ∉ gap := by
  obtain ⟨blanks, sign, rfl, blank, rfl | rfl⟩ := isGap
  · rw [List.append_nil]
    exact fun member => absurd (blank '{' member) (by decide)
  · intro member
    rcases List.mem_append.mp member with inside | inside
    · exact absurd (blank '{' inside) (by decide)
    · exact absurd inside (by decide)

/-- What stands before a closing mustache stands before it as it is written without gaps. -/
theorem eq_of_closingMustache {name : String} {front text closing : List Char} (word : IsName name.toList)
    (closes : IsClosingMustache name closing)
    (same : text ++ '}' :: '}' :: closing =
      front ++ '}' :: '}' :: '{' :: '{' :: '/' :: (name.toList ++ ['}', '}'])) : text = front := by
  obtain ⟨sign, gap, behind, rfl, isSign, isGap, isGap'⟩ := closes
  have clear : '{' ∉ name.toList := fun member => absurd (word.joined '{' member) (by decide)
  have one : '{' ∉ sign ++ '/' :: (gap ++ name.toList ++ behind ++ ['}', '}']) := by
    rcases isSign with rfl | rfl <;> simp [isGap.brace_not_mem, isGap'.brace_not_mem, clear]
  have two : '{' ∉ '/' :: (name.toList ++ ['}', '}']) := by simp [clear]
  have whole : (text ++ ['}', '}', '{']) ++ '{' :: (sign ++ '/' :: (gap ++ name.toList ++ behind ++ ['}', '}'])) =
      (front ++ ['}', '}', '{']) ++ '{' :: '/' :: (name.toList ++ ['}', '}']) := by
    simpa using same
  exact List.append_cancel_right (append_cons_inj_last one two whole).1

/-- A space in front of arguments, or braces without any, end a word. -/
theorem endsWord_of_space {args : List Char} (apart : ∀ c ∈ args.head?, c = ' ') :
    EndsWord (args ++ ['}', '}']) := by
  cases args with
  | nil => exact endsWord_brace _
  | cons c rest =>
    obtain rfl := apart c rfl
    exact endsWord_blank _

/-- A word with a letter in front that does not begin with `else` is the mark of nothing. -/
theorem startsMark_of_letter {word : List Char} (letter : ∃ c ∈ word.head?, Unicode.isAlphabetic c = true)
    (plain : ¬ ['e', 'l', 's', 'e'] <+: word) : startsMark word = false := by
  obtain ⟨c, first, letter⟩ := letter
  obtain ⟨rest, rfl⟩ := List.head?_eq_some_iff.mp first
  have slash : ('/' == c) = false := by
    rw [beq_eq_false_iff_ne]
    rintro rfl
    exact absurd letter (by decide)
  rw [← List.isPrefixOf_iff_prefix, Bool.not_eq_true] at plain
  rw [startsMark, plain, List.isPrefixOf, slash]
  rfl

/-- Calls that are equal up to spans have the same name, and arguments that are equal up to spans. -/
theorem Call.fields_of_withoutSpans {first second : Call} (same : first.withoutSpans = second.withoutSpans) :
    first.path.name = second.path.name ∧
      paramsWithoutSpans first.params = paramsWithoutSpans second.params ∧
      hashWithoutSpans first.hash = hashWithoutSpans second.hash := by
  cases first
  cases second
  simp only [withoutSpans, Call.mk.injEq] at same
  obtain ⟨path, params, hash, -⟩ := same
  have named := congrArg Path.name path
  exact ⟨named, params, hash⟩

namespace Tree

/-- A source that begins with a block goes on within it. -/
theorem exists_call_of_read {source : String} {opening : Nat} {trees : List Tree} {last : Cursor}
    (markup : startsMarkup (Cursor.ofString source).rest = true)
    (first : Markup.first (Cursor.ofString source).rest = .blockOpen opening)
    (finished : Tree.read source = .ok (trees, last)) :
    ∃ call after, ((Cursor.ofString source).skip opening).readCall .start = .ok (call, after) ∧
      (Reading.start.enter (.block call .start after.position)).run after = .ok (trees, last) := by
  have step : Reading.start.step (.ofString source) = Reading.start.openBlock (.ofString source) opening := by
    rw [Reading.step, if_pos markup, Reading.readMarkup, first]
  rw [Tree.read, Reading.run_eq, if_neg (Reading.ne_nil_of_startsMarkup markup), step,
    Reading.openBlock] at finished
  cases found : ((Cursor.ofString source).skip opening).readCall (Cursor.ofString source).position with
  | error fault =>
    rw [found] at finished
    cases finished
  | ok result =>
    rw [found] at finished
    exact ⟨result.1, result.2, found, finished⟩

namespace Reading

variable {call : Call} {begin bodyStart : Position} {cursor last : Cursor} {single : Tree}

/-- A block that is all there is, and empty, is closed right behind its head. -/
theorem exists_block_of_run (begun : Position.start.UpTo cursor.position)
    (ran : (start.enter (.block call begin bodyStart)).run cursor = .ok ([single], last))
    (alone : single.count = 1) :
    ∃ block, single = .branch (.block block) [] ∧ block.path = call.path ∧ block.params = call.params ∧
      block.hash = call.hash ∧ IsName call.path.name.toList ∧ IsClosingMustache call.path.name cursor.rest := by
  have filled : cursor.rest ≠ [] := by
    intro ended
    rw [run_eq, if_pos ended] at ran
    cases ran
  obtain ⟨reading', after, moves, ran⟩ := exists_moves_of_run filled ran
  have onward : Position.start.UpTo after.position := begun.trans (reaches_of_moves moves).upTo
  have small : reading'.size ≤ 1 := by
    have kept := (countAll_of_run ran).1
    simpa [countAll, alone] using kept
  cases moves with
  | closeBlock markup first inside found name closed =>
    cases inside
    obtain ⟨same, ended⟩ := eq_of_run_push onward ran
    obtain ⟨sign, isSign, rfl, front⟩ := front_of_blockClose first
    obtain ⟨gap, isGap, named⟩ := Cursor.passes_of_readPath found
    obtain ⟨gap', isGap', braces⟩ := Cursor.passes_of_readClose closed
    have passed := (Cursor.passes_of_prefix front).trans (named.trans braces)
    refine ⟨_, same.symm, rfl, rfl, rfl, name ▸ Cursor.isName_of_readPath found, sign, gap, gap', ?_,
      isSign, isGap, isGap'⟩
    simp [passed.rest, ended, name]
  | closeElement markup first inside name found => cases inside
  | text plain =>
    simp only [readText, size_push, size_enter, count] at small
    omega
  | mustache markup first found =>
    simp only [size_push, size_enter, count] at small
    omega
  | comment markup first found =>
    simp only [size_push, size_enter, count] at small
    omega
  | lone markup first name found whole =>
    simp only [size_push, size_enter, count] at small
    omega
  | enterElement markup first name found ordinary =>
    simp only [size_enter] at small
    omega
  | enterBlock markup first found =>
    simp only [size_enter] at small
    omega

end Reading

/-- A source that begins like an else branch is not read. -/
theorem read_of_else {source : String} {rest : List Char}
    (shape : source.toList = '{' :: '{' :: 'e' :: 'l' :: 's' :: 'e' :: rest) :
    Tree.read source = .error ⟨.elseBlock, .start⟩ := by
  have markup : startsMarkup source.toList = true := by
    rw [shape]
    rfl
  have step : Reading.start.step (.ofString source) = .error ⟨.elseBlock, .start⟩ := by
    rw [Reading.step, Reading.readMarkup, Cursor.ofString, shape]
    rfl
  have filled : (Cursor.ofString source).rest ≠ [] := Reading.ne_nil_of_startsMarkup markup
  rw [Tree.read, Reading.run_eq, if_neg filled, step]

end Tree

namespace Template

/-- A block without children that is all of a source has been read as such. -/
theorem exists_trees_of_lone_block {source : String} {template : Template} {block : Block}
    (found : read source = .ok template) (lone : template.loneNode? = some (.branch (.block block) [])) :
    ∃ last, Tree.read source = .ok ([.branch (.block block) []], last) := by
  obtain ⟨trees, last, finished, rfl⟩ := exists_trees_of_read found
  obtain ⟨tree, id, rfl, shown, here⟩ := exists_tree_of_loneNode? lone
  cases tree with
  | leaf content => cases here.symm.trans shown
  | branch head below =>
    obtain ⟨ids, branch, inside⟩ := shown
    cases here.symm.trans branch
    cases below with
    | nil => exact ⟨last, finished⟩
    | cons tree trees =>
      obtain ⟨_, _, nothing, -⟩ := inside
      cases nothing

section

variable {word args : String} {template : Template} {block : Block}
  (found : read ("\x7b\x7b#" ++ word ++ args ++ "\x7d\x7d\x7b\x7b/" ++ word ++ "\x7d\x7d") = .ok template)
  (lone : template.loneNode? = some (.branch (.block block) [])) (name : block.path.name = word)

include found lone name

/-- The call of an empty block is what stands between its first braces. -/
theorem exists_call_of_lone_block : IsName word.toList ∧ ∃ (cursor after : Cursor) (call : Call),
    cursor.readCall .start = .ok (call, after) ∧
      cursor.rest = (word ++ args).toList ++ '}' :: '}' :: after.rest ∧ block.path = call.path ∧
      block.params = call.params ∧ block.hash = call.hash := by
  obtain ⟨last, finished⟩ := exists_trees_of_lone_block found lone
  generalize written : "\x7b\x7b#" ++ word ++ args ++ "\x7d\x7d\x7b\x7b/" ++ word ++ "\x7d\x7d" = source
    at finished
  have text : source.toList = ['{', '{', '#'] ++
      ((word ++ args).toList ++ '}' :: '}' :: '{' :: '{' :: '/' :: (word.toList ++ ['}', '}'])) := by
    simp [← written]
  have begun : (Cursor.ofString source).rest = ['{', '{', '#'] ++ _ := text
  have markup : startsMarkup (Cursor.ofString source).rest = true := by
    rw [begun]
    rfl
  have first : Markup.first (Cursor.ofString source).rest = .blockOpen 3 := by
    rw [begun]
    rfl
  obtain ⟨call, after, called, ran⟩ := Tree.exists_call_of_read markup first finished
  have onward : Position.start.UpTo after.position :=
    ((Cursor.reaches_skip (.ofString source) 3).trans (Cursor.span_of_readCall called).1).upTo
  obtain ⟨own, same, path, params, hash, isName, closes⟩ :=
    Tree.Reading.exists_block_of_run onward ran rfl
  cases same
  rw [← path, name] at isName closes
  obtain ⟨body, braces⟩ := Call.Reading.exists_braces_of_run called
  obtain rfl := eq_of_closingMustache isName closes (braces.symm.trans (Cursor.rest_skip begun))
  exact ⟨isName, _, after, call, called, braces, path, params, hash⟩

/-- A word that begins with a letter, and arguments, make an empty block. They make a mustache as well, with
the same arguments up to spans, exactly if the word does not begin with `else`; and if it does, then the
mustache is taken for the mark of an else branch, whatever else the word holds. -/
theorem read_mustache_of_block_iff (letter : ∃ c ∈ word.toList.head?, Unicode.isAlphabetic c = true)
    (apart : ∀ c ∈ args.toList.head?, c = ' ') :
    ((∃ other call, read ("\x7b\x7b" ++ word ++ args ++ "\x7d\x7d") = .ok other ∧
        other.loneNode? = some (.leaf (.mustache call)) ∧ call.path.name = word ∧
        paramsWithoutSpans call.params = paramsWithoutSpans block.params ∧
        hashWithoutSpans call.hash = hashWithoutSpans block.hash) ↔
      ¬ ['e', 'l', 's', 'e'] <+: word.toList) ∧
    (['e', 'l', 's', 'e'] <+: word.toList →
      read ("\x7b\x7b" ++ word ++ args ++ "\x7d\x7d") = .error ⟨.elseBlock, ⟨1, 0⟩⟩) := by
  obtain ⟨isName, cursor, after, call, called, shape, path, params, hash⟩ :=
    exists_call_of_lone_block found lone name
  have text : ("\x7b\x7b" ++ word ++ args ++ "\x7d\x7d").toList =
      '{' :: '{' :: (word.toList ++ (args.toList ++ ['}', '}'])) := by simp
  have refused (mark : ['e', 'l', 's', 'e'] <+: word.toList) :
      read ("\x7b\x7b" ++ word ++ args ++ "\x7d\x7d") = .error ⟨.elseBlock, ⟨1, 0⟩⟩ := by
    obtain ⟨others, whole⟩ := mark
    rw [← whole] at text
    rw [read, Tree.read_of_else text]
    rfl
  have accepted (plain : ¬ ['e', 'l', 's', 'e'] <+: word.toList) :
      ∃ other call, read ("\x7b\x7b" ++ word ++ args ++ "\x7d\x7d") = .ok other ∧
        other.loneNode? = some (.leaf (.mustache call)) ∧ call.path.name = word ∧
        paramsWithoutSpans call.params = paramsWithoutSpans block.params ∧
        hashWithoutSpans call.hash = hashWithoutSpans block.hash := by
    have first : Markup.first ("\x7b\x7b" ++ word ++ args ++ "\x7d\x7d").toList = .mustache := by
      rw [text]
      exact Markup.first_mustache isName (endsWord_of_space apart) (startsMark_of_letter letter plain)
    have front : (Cursor.ofString ("\x7b\x7b" ++ word ++ args ++ "\x7d\x7d")).rest =
        ['{', '{'] ++ ((word ++ args).toList ++ ['}', '}']) := by simp [Cursor.ofString]
    obtain ⟨peer, behind, ran, ended, same⟩ :=
      Call.Reading.run_of_closing rfl shape (Cursor.rest_skip front) (.inl rfl) called
    have again := Tree.read_of_readMustache first ran ended
    obtain ⟨named, params', hash'⟩ := Call.fields_of_withoutSpans same
    refine ⟨ofTrees [.leaf (.mustache peer)] ⟨.start, behind.position⟩, peer, by rw [read, again],
      loneNode?_ofTrees_leaf _ _, ?_, ?_, ?_⟩
    · rw [named, ← path, name]
    · rw [params', params]
    · rw [hash', hash]
  refine ⟨⟨?_, accepted⟩, refused⟩
  rintro ⟨other, call, again, -⟩ mark
  rw [refused mark] at again
  cases again

end

/-- Whether there is nothing in a template but one block of a name, without children. -/
def isLoneBlock (template : Template) (name : String) : Bool :=
  match template.loneNode? with
  | some (.branch (.block block) []) => block.path.name = name
  | _ => false

theorem exists_block_of_isLoneBlock {template : Template} {name : String}
    (lone : template.isLoneBlock name = true) :
    ∃ block, template.loneNode? = some (.branch (.block block) []) ∧ block.path.name = name := by
  unfold isLoneBlock at lone
  split at lone
  · rename_i block node
    exact ⟨block, node, of_decide_eq_true lone⟩
  · cases lone

/-- With the same arguments a block is read under either word, and a mustache under one of them. -/
theorem read_mustache_of_block_iff_for_words :
    (∃ template, read "\x7b\x7b#elsewhere a=1\x7d\x7d\x7b\x7b/elsewhere\x7d\x7d" = .ok template) ∧
      read "\x7b\x7belsewhere a=1\x7d\x7d" = .error ⟨.elseBlock, ⟨1, 0⟩⟩ ∧
      ∃ other call, read "\x7b\x7bwhere a=1\x7d\x7d" = .ok other ∧
        other.loneNode? = some (.leaf (.mustache call)) ∧ call.path.name = "where" := by
  have facts :
      (read ("\x7b\x7b#" ++ "elsewhere" ++ " a=1" ++ "\x7d\x7d\x7b\x7b/" ++ "elsewhere" ++
        "\x7d\x7d")).toOption.any (isLoneBlock · "elsewhere") = true ∧
      (read ("\x7b\x7b#" ++ "where" ++ " a=1" ++ "\x7d\x7d\x7b\x7b/" ++ "where" ++
        "\x7d\x7d")).toOption.any (isLoneBlock · "where") = true := by
    decide +kernel
  have letters : (∃ c ∈ "elsewhere".toList.head?, Unicode.isAlphabetic c = true) ∧
      ∃ c ∈ "where".toList.head?, Unicode.isAlphabetic c = true := ⟨⟨'e', rfl, rfl⟩, 'w', rfl, rfl⟩
  have apart : ∀ c ∈ " a=1".toList.head?, c = ' ' := by
    rintro _ ⟨⟩
    rfl
  obtain ⟨template, found, alone⟩ := exists_of_any facts.1
  obtain ⟨peer, there, lone⟩ := exists_of_any facts.2
  obtain ⟨block, node, name⟩ := exists_block_of_isLoneBlock alone
  obtain ⟨block', node', name'⟩ := exists_block_of_isLoneBlock lone
  obtain ⟨-, refused⟩ := read_mustache_of_block_iff found node name letters.1 apart
  obtain ⟨accepted, -⟩ := read_mustache_of_block_iff there node' name' letters.2 apart
  obtain ⟨other, call, again, whole, named, -⟩ := accepted.mpr (by decide)
  exact ⟨⟨template, found⟩, refused (by decide), other, call, again, whole, named⟩

end Template

end LayoutMarkup
