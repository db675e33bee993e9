import LayoutMarkup.Proofs.Template.Legible

/-! What a successful reading of legible trees tells about them. It fails where a brace stands before
braces and where a mustache begins like an `else`; a mustache that is taken for the end of a block leaves
one block less open, which no later piece makes good. So legible trees that are read are clear. -/

namespace LayoutMarkup

open Lexeme

/-- Whether a text begins with something of a kind, if this kind is not text. -/
def Front.Fits (next : Front) (tail : List Char) : Prop := next ≠ .text → Front.of tail = next

/-- If a written mustache is read as the end of a block, then just as far as it was written: its name
without the slash, or its one argument if there is only the slash, is the name of the block. -/
theorem Cursor.rest_of_blockClose {cursor behind after : Cursor} {tail : List Char} {call : Call}
    {path : Path} (met : call.meets .legible = true)
    (slash : ['/'].isPrefixOf call.path.name.toList = true)
    (shape : cursor.rest = call.writeMustache ++ tail)
    (named : (cursor.skip 3).readPath = .ok (path, behind)) (closed : behind.readClose = .ok after) :
    after.rest = tail := by
  obtain ⟨read, last, found, left, -⟩ := readMustache_write met shape
  obtain ⟨args, written, begins⟩ := call.write_eq_name_append
  obtain ⟨letters, word⟩ := List.isPrefixOf_iff_prefix.mp slash
  have name := Call.Reading.isName_of_meets met
  have ended : EndsWord (args ++ '}' :: '}' :: tail) := endsWord_args begins (endsWord_brace _)
  have front : cursor.rest = ['{', '{'] ++ (call.path.name.toList ++ (args ++ '}' :: '}' :: tail)) := by
    simp [shape, Call.writeMustache, written]
  obtain ⟨span, callee⟩ : ∃ span, (cursor.skip 2).readLexeme =
      (.ok ⟨.path (String.ofList call.path.name.toList), span⟩,
        (cursor.skip 2).skip call.path.name.toList.length) :=
    readLexeme_name name ended (rest_skip front)
  have next := readLexeme_of_readPath named
  obtain ⟨around, close⟩ := readLexeme_of_readClose closed
  rw [readMustache, readCall, Call.Reading.run_of_step callee rfl] at found
  -- both readings go on behind the name, the end of the block with the name or with the close
  suffices same : last = after by rw [← same, left]
  cases letters with
  | nil =>
    rw [← word, List.append_nil, List.length_singleton, skip_skip,
      Call.Reading.run_of_step next (Call.Reading.step_of_atom rfl (.inr rfl)),
      Call.Reading.run_of_close close rfl] at found
    cases found
    rfl
  | cons c letters =>
    have joined : ∀ d ∈ c :: letters, isPathChar d = true := fun d member =>
      name.joined d (word ▸ List.mem_cons_of_mem _ member)
    have inner : (cursor.skip 3).rest = c :: letters ++ (args ++ '}' :: '}' :: tail) := by
      simp [skip, front, ← word]
    obtain ⟨count, taken, rfl⟩ := read_of_readLexeme next
    rw [skipGap_of_isPathChar inner (joined c List.mem_cons_self)] at taken close
    obtain ⟨whole, rfl⟩ := takeWhile_of_read taken
    rw [inner, takeWhile_append_stop joined fun d first => (ended d first).1] at whole
    have behind : (cursor.skip 2).skip call.path.name.toList.length =
        (cursor.skip 3).skip path.name.toList.length := by
      rw [skip_skip, skip_skip, ← whole, ← word]
      congr 1
      simp only [List.singleton_append, List.length_cons]
      omega
    rw [behind, Call.Reading.run_of_close close rfl] at found
    cases found
    rfl

namespace Tree.Reading

variable {text first second : List Char} {next between : Front} {opened closed : Nat}
  {fact other : Prop}

/-- A text over which every reading that succeeds opens some blocks and closes some. -/
def Counts (text : List Char) (opened closed : Nat) : Prop :=
  ∀ (reading : Reading) (cursor : Cursor) (tail : List Char) (result : List Tree × Cursor),
    cursor.rest = text ++ tail → reading.run cursor = .ok result →
      ∃ (reading' : Reading) (after : Cursor), after.rest = tail ∧ reading'.run after = .ok result ∧
        reading'.depth + closed = reading.depth + opened

/-- A text behind which a reading that succeeds has no more blocks open than before, and as many only
if something holds. -/
def Shows (text : List Char) (next : Front) (fact : Prop) : Prop :=
  ∀ (reading : Reading) (cursor : Cursor) (tail : List Char) (result : List Tree × Cursor),
    cursor.rest = text ++ tail → next.Fits tail → reading.run cursor = .ok result →
      ∃ (reading' : Reading) (after : Cursor), after.rest = tail ∧ reading'.run after = .ok result ∧
        reading'.depth ≤ reading.depth ∧ (reading'.depth = reading.depth → fact)

theorem shows_of_counts (counts : Counts text 0 closed) (even : closed = 0 → fact) :
    Shows text next fact := by
  intro reading cursor tail result shape _ ran
  obtain ⟨reading', after, left, went, balance⟩ := counts reading cursor tail result shape ran
  exact ⟨reading', after, left, went, by omega, fun same => even (by omega)⟩

theorem shows_of_readsAsTree {expected : Tree} (holds : fact)
    (reads : ∀ tail, next.Fits tail → ReadsAsTree text expected (Front.of tail)) :
    Shows text next fact := by
  intro reading cursor tail result shape fits ran
  obtain ⟨tree, after, left, -, went⟩ := reads tail fits reading cursor tail shape rfl
  exact ⟨reading.push tree, after, left, went.symm.trans ran, Nat.le_refl _, fun _ => holds⟩

theorem shows_append (one : Shows first between fact) (two : Shows second next other)
    (begins : ∀ tail, next.Fits tail → between.Fits (second ++ tail)) :
    Shows (first ++ second) next (fact ∧ other) := by
  intro reading cursor tail result shape fits ran
  rw [List.append_assoc] at shape
  obtain ⟨middle, behind, left, went, less, same⟩ :=
    one reading cursor _ result shape (begins tail fits) ran
  obtain ⟨reading', after, rest, done, less', same'⟩ := two middle behind tail result left fits went
  exact ⟨reading', after, rest, done, by omega, fun equal => ⟨same (by omega), same' (by omega)⟩⟩

/-- What is opened before a text and closed behind it does not matter. -/
theorem shows_between {start content ending : List Char} (opening : Counts start opened 0)
    (inside : Shows content between fact) (closing : Counts ending 0 opened)
    (begins : ∀ tail, Front.of (ending ++ tail) = between) :
    Shows (start ++ content ++ ending) next fact := by
  intro reading cursor tail result shape _ ran
  rw [List.append_assoc, List.append_assoc] at shape
  obtain ⟨entered, front, left, went, grown⟩ := opening reading cursor _ result shape ran
  obtain ⟨behind, last, rest, passed, less, same⟩ :=
    inside entered front _ result left (fun _ => begins tail) went
  obtain ⟨reading', after, final, done, shrunk⟩ := closing behind last tail result rest passed
  exact ⟨reading', after, final, done, by omega, fun equal => same (by omega)⟩

theorem counts_startTag {element : Element} (legal : TagIsRead element.tag element.attributes)
    (contained : ∀ attr ∈ element.attributes, attr.value.IsSelfContained) :
    Counts element.writeStart 0 0 := by
  intro reading cursor tail result shape ran
  have inhabited : Nonempty AttributeValue := ⟨.text (.made "")⟩
  choose! expected values using contained
  obtain ⟨markup, first, name, -⟩ := startTag_begins legal shape
  obtain ⟨attrs, after, found, left, -⟩ := startTag_written legal values shape
  have tag : element.tag = String.ofList (tagBehind cursor 1) := by rw [name, String.ofList_toList]
  have filled := ne_nil_of_startsMarkup markup
  by_cases whole : (element.selfClosing || isVoidTag element.tag) = true
  · rw [run_of_moves filled (.lone markup first tag found whole)] at ran
    exact ⟨_, after, left, ran, rfl⟩
  · rw [Bool.not_eq_true, Bool.or_eq_false_iff] at whole
    rw [whole.1] at found
    rw [run_of_moves filled (.enterElement markup first tag found whole.2)] at ran
    exact ⟨_, after, left, ran, by simp [depth_enter, Opening.isBlock]⟩

theorem counts_endTag {element : Element} (joined : ∀ c ∈ element.tag.toList, isTagChar c = true) :
    Counts element.writeEnd 0 0 := by
  intro reading cursor tail result shape ran
  obtain ⟨markup, first, -, after, eaten, left⟩ := endTag_written joined shape
  obtain ⟨reading', after', moves, went⟩ := exists_moves_of_run (ne_nil_of_startsMarkup markup) ran
  cases moves with
  | closeElement _ _ inside _ found =>
    rw [eaten] at found
    cases found
    exact ⟨_, after, left, went, depth_close _ inside⟩
  | _ => simp_all

theorem counts_blockStart {block : Block} (met : block.call.meets .legible = true) :
    Counts block.writeStart 1 0 := by
  intro reading cursor tail result shape ran
  obtain ⟨markup, first, call, after, found, left, -⟩ := blockStart_written met shape
  rw [run_of_moves (ne_nil_of_startsMarkup markup) (.enterBlock markup first found)] at ran
  exact ⟨_, after, left, ran, by simp [depth_enter, Opening.isBlock]⟩

/-- What is read as the end of a block closes one. -/
theorem counts_blockClose
    (slash : ∀ (cursor : Cursor) (tail : List Char), cursor.rest = text ++ tail →
      startsMarkup cursor.rest = true ∧ Markup.first cursor.rest = .blockClose 3 ∧
        ∀ path behind after, (cursor.skip 3).readPath = .ok (path, behind) →
          behind.readClose = .ok after → after.rest = tail) :
    Counts text 0 1 := by
  intro reading cursor tail result shape ran
  obtain ⟨markup, first, ends⟩ := slash cursor tail shape
  obtain ⟨reading', after, moves, went⟩ := exists_moves_of_run (ne_nil_of_startsMarkup markup) ran
  cases moves with
  | closeBlock _ first' inside found name closed =>
    rw [first] at first'
    cases first'
    exact ⟨_, after, ends _ _ _ found closed, went, depth_close _ inside⟩
  | _ => simp_all

theorem counts_blockEnd {block : Block} (word : IsName block.path.name.toList) :
    Counts block.writeEnd 0 1 := by
  apply counts_blockClose
  intro cursor tail shape
  obtain ⟨markup, first, path, behind, after, found, -, closed, left⟩ := blockEnd_written word shape
  refine ⟨markup, first, ?_⟩
  intro path' behind' after' found' closed'
  rw [found] at found'
  cases found'
  rw [closed] at closed'
  cases closed'
  exact left

theorem counts_slash {call : Call} (met : call.meets .legible = true)
    (slash : ['/'].isPrefixOf call.path.name.toList = true) : Counts call.writeMustache 0 1 := by
  apply counts_blockClose
  intro cursor tail shape
  obtain ⟨letters, word⟩ := List.isPrefixOf_iff_prefix.mp slash
  obtain ⟨args, written, -⟩ := call.write_eq_name_append
  have front : cursor.rest = '{' :: '{' :: '/' :: (letters ++ (args ++ '}' :: '}' :: tail)) := by
    simp [shape, Call.writeMustache, written, ← word]
  exact ⟨startsMarkup_iff.mpr (.inl ⟨_, front⟩), by rw [front]; rfl,
    fun path behind after found closed => Cursor.rest_of_blockClose met slash shape found closed⟩

/-- A mustache that begins like an `else` is not read at all. -/
theorem shows_else {call : Call}
    (mark : ['e', 'l', 's', 'e'].isPrefixOf call.path.name.toList = true) :
    Shows call.writeMustache next fact := by
  intro reading cursor tail result shape _ ran
  obtain ⟨letters, word⟩ := List.isPrefixOf_iff_prefix.mp mark
  obtain ⟨args, written, -⟩ := call.write_eq_name_append
  have front : cursor.rest =
      '{' :: '{' :: 'e' :: 'l' :: 's' :: 'e' :: (letters ++ (args ++ '}' :: '}' :: tail)) := by
    simp [shape, Call.writeMustache, written, ← word]
  have markup : startsMarkup cursor.rest = true := startsMarkup_iff.mpr (.inl ⟨_, front⟩)
  have first : Markup.first cursor.rest = .elseMark := by
    rw [front]
    rfl
  obtain ⟨reading', after, moves, -⟩ := exists_moves_of_run (ne_nil_of_startsMarkup markup) ran
  cases moves <;> simp_all

/-- Three braces are not read at all. -/
theorem run_ne_ok_of_braces {reading : Reading} {cursor : Cursor} {tail : List Char}
    {result : List Tree × Cursor} (shape : cursor.rest = '{' :: '{' :: '{' :: tail) :
    reading.run cursor ≠ .ok result := by
  intro ran
  have markup : startsMarkup cursor.rest = true := startsMarkup_iff.mpr (.inl ⟨_, shape⟩)
  have first : Markup.first cursor.rest = .tripleStash := by
    rw [shape]
    rfl
  obtain ⟨reading', after, moves, -⟩ := exists_moves_of_run (ne_nil_of_startsMarkup markup) ran
  cases moves <;> simp_all

/-- A text without its last character, a brace, is one that is read before braces. -/
theorem textIsRead_before_brace {front : List Char} (read : TextIsRead (front ++ ['{']) .stop)
    (filled : front ≠ []) : TextIsRead front .brace := by
  have whole := read.plain
  rw [textStretch_eq_stretch] at whole
  have plain : ∀ piece, piece <:+ front → startsMarkup (piece ++ ['{']) = false := by
    rintro piece ⟨before, rfl⟩
    exact stop_of_stretch_eq_self whole ⟨before, by simp⟩ (by simp)
  refine ⟨filled, ?_, by decide, ?_⟩
  · rw [textStretch_eq_stretch]
    apply stretch_eq_self
    intro piece suffix _
    rw [← Bool.not_eq_true]
    intro markup
    have stopped := plain piece suffix
    rw [startsMarkup_append markup] at stopped
    cases stopped
  · intro _ last
    obtain ⟨before, rfl⟩ := List.getLast?_eq_some_iff.mp last
    have stopped := plain ['{'] (List.suffix_append _ _)
    simp [startsMarkup, startsMustache, List.isPrefixOf] at stopped

/-- Text that ends with a brace is read without it before braces, and then not at all. -/
theorem shows_brace {literal : Text} (read : TextIsRead literal.chars.toList .stop)
    (brace : literal.chars.toList.getLast? = some '{') :
    Shows literal.chars.toList .brace fact := by
  intro reading cursor tail result shape fits ran
  exfalso
  obtain ⟨front, split⟩ := List.getLast?_eq_some_iff.mp brace
  obtain ⟨rest, rfl⟩ := startsMustache_iff.mp (Front.of_eq_brace (fits (by decide)))
  have braces : cursor.rest = front ++ '{' :: '{' :: '{' :: rest := by simp [shape, split]
  by_cases bare : front = []
  · exact run_ne_ok_of_braces (by rw [braces, bare]; rfl) ran
  · rw [split] at read
    have shorter : TextIsRead (Text.made (String.ofList front)).chars.toList .brace := by
      simpa [Text.made] using textIsRead_before_brace read bare
    obtain ⟨tree, after, left, -, went⟩ := readsAsTree_text shorter reading cursor _
      (by simpa [Text.made] using braces) (front_braces _)
    rw [went] at ran
    exact run_ne_ok_of_braces left ran

theorem shows_leaf {content : Leaf} (legible : content.IsLegible next) :
    Shows content.write next (content.isClear next = true) := by
  cases content with
  | text literal =>
    by_cases clear : (Leaf.text literal).isClear next = true
    · have reads := readsAsTree_text (textIsRead_of_isClear legible clear)
      exact shows_of_readsAsTree clear fun tail fits => by rw [fits legible.2]; exact reads
    · have braces : literal.chars.toList.getLast? = some '{' ∧ next = .brace := by
        simpa [Leaf.isClear, Leaf.keepsKind, Leaf.endsInBrace] using clear
      obtain ⟨last, rfl⟩ := braces
      exact shows_brace legible.1 last
  | comment remark =>
    exact shows_of_readsAsTree (by simp [Leaf.isClear, Leaf.keepsKind, Leaf.endsInBrace])
      fun tail _ => readsAsTree_comment _ legible
  | mustache call =>
    by_cases slash : ['/'].isPrefixOf call.path.name.toList = true
    · exact shows_of_counts (counts_slash legible slash) fun none => absurd none (by decide)
    by_cases mark : ['e', 'l', 's', 'e'].isPrefixOf call.path.name.toList = true
    · exact shows_else mark
    · rw [Bool.not_eq_true] at slash mark
      have plain : startsMark call.path.name.toList = false := by rw [startsMark, slash, mark]; rfl
      exact shows_of_readsAsTree
        (by simp [Leaf.isClear, Leaf.keepsKind, Leaf.endsInBrace, plain])
        fun tail _ => readsAsTree_mustache _ legible plain

theorem fits_writeAll {trees : List Tree} (legible : AllLegible trees next) {tail : List Char}
    (fits : next.Fits tail) : (frontAll trees next).Fits (writeAll trees ++ tail) := by
  cases trees with
  | nil => exact fits
  | cons tree trees =>
    intro markup
    rw [writeAll, List.append_assoc]
    exact front_of_isLegible legible.1 markup _

mutual

/-- Over a legible tree a reading that succeeds closes at least the blocks that it opens, and no other
only if the tree is clear. -/
theorem shows_tree : ∀ (tree : Tree) (next : Front), tree.IsLegible next →
    Shows tree.write next (tree.isClear next = true)
  | .leaf _, _, legible => shows_leaf legible
  | .branch (.program _) _, _, legible => legible.1.elim
  | .branch (.element element) trees, next, ⟨⟨legal, contained⟩, lone, below⟩ => by
    have start := counts_startTag legal contained
    by_cases whole : (element.selfClosing || isVoidTag element.tag) = true
    · obtain rfl := lone whole
      rw [write_lone whole]
      exact shows_of_counts start fun _ => rfl
    · rw [Bool.not_eq_true] at whole
      rw [write_between trees whole]
      exact shows_between start (shows_trees trees .angle below) (counts_endTag legal.joined)
        (front_writeEnd element)
  | .branch (.block block) trees, next, ⟨met, _, below⟩ =>
    shows_between (counts_blockStart met) (shows_trees trees .brace below)
      (counts_blockEnd (Call.Reading.isName_of_meets met)) (front_writeBlockEnd block)

theorem shows_trees : ∀ (trees : List Tree) (next : Front), AllLegible trees next →
    Shows (writeAll trees) next (allClear trees next = true)
  | [], _, _ => fun reading cursor _ _ shape _ ran =>
    ⟨reading, cursor, shape, ran, Nat.le_refl _, fun _ => rfl⟩
  | tree :: trees, next, ⟨first, others⟩ => by
    simp only [allClear, Bool.and_eq_true]
    exact shows_append (shows_tree tree _ first) (shows_trees trees next others)
      fun _ => fits_writeAll others

end

end Tree.Reading

/-- Legible trees that can be read from their written form are clear. -/
theorem Tree.allClear_of_read {trees again : List Tree} {cursor : Cursor}
    (legible : AllLegible trees .stop)
    (found : Tree.read (String.ofList (writeAll trees)) = .ok (again, cursor)) :
    allClear trees .stop = true := by
  obtain ⟨reading', after, -, -, less, same⟩ := Reading.shows_trees trees .stop legible .start
    (.ofString (String.ofList (writeAll trees))) [] (again, cursor) (by simp [Cursor.ofString])
    (fun _ => rfl) found
  -- nothing is open at the start, so no block can have been closed on the way
  exact same (Nat.le_antisymm less (Nat.zero_le _))

namespace Template

variable {trees : List Tree} {text : String}

/-- A template made of legible trees can be read as it is printed exactly if they are clear. -/
theorem read_print_ofTrees_iff {span : Span} (legible : Tree.AllLegible trees .stop)
    (printed : (ofTrees trees span).print = some text) :
    (∃ again, read text = .ok again) ↔ Tree.allClear trees .stop = true := by
  rw [print_ofTrees] at printed
  cases printed
  constructor
  · rintro ⟨again, reread⟩
    obtain ⟨trees', last, finished, -⟩ := exists_trees_of_read reread
    exact Tree.allClear_of_read legible finished
  · intro clear
    obtain ⟨again, last, finished, -⟩ := Tree.read_of_allClear legible clear
    exact ⟨ofTrees again ⟨.start, last.position⟩, by rw [read, finished]⟩

/-- What is read then has the same kinds of nodes. -/
theorem kinds_of_read_print {again : Template} {span : Span} (legible : Tree.AllLegible trees .stop)
    (printed : (ofTrees trees span).print = some text) (reread : read text = .ok again) :
    again.kinds = (ofTrees trees span).kinds := by
  have clear := (read_print_ofTrees_iff legible printed).mp ⟨again, reread⟩
  obtain ⟨trees', last, finished, kinds, -⟩ := Tree.read_of_allClear legible clear
  rw [print_ofTrees] at printed
  cases printed
  rw [read, finished] at reread
  cases reread
  rw [kinds_ofTrees, kinds_ofTrees, kinds]

end Template

end LayoutMarkup
