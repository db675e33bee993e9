import LayoutMarkup.Proofs.Template.CanonicalReading

/-! The pieces of written trees, read back. All markup is told apart by its first characters, and texts
end where they did in the source. Only a mustache in content has to be told apart from the end of a
block and from an `else`. -/

namespace LayoutMarkup

open Lexeme

/-- Whether a name, first in a mustache, makes it the mark of something else. -/
def startsMark (name : List Char) : Bool :=
  ['/'].isPrefixOf name || ['e', 'l', 's', 'e'].isPrefixOf name

/-- An element with the values of its attributes read as others, spans apart. -/
def Element.readAs (expected : Attribute → AttributeValue) (element : Element) : Element :=
  ⟨element.tag, element.attributes.map (Attribute.readAs expected), element.selfClosing, .nowhere⟩

def Element.reread (element : Element) : Element :=
  ⟨element.tag, element.attributes.map Attribute.reread, element.selfClosing, .nowhere⟩

def Block.reread (block : Block) : Block where
  path := block.path.withoutSpan
  params := rereadParams block.params
  hash := rereadHash block.hash
  bodySpan := .nowhere
  span := .nowhere

/-! ### Telling markup apart -/

/-- What begins a text before the end of a word begins the word. -/
theorem isPrefixOf_word_append {pattern word tail : List Char}
    (joined : ∀ c ∈ pattern, isPathChar c = true) (ended : EndsWord tail) :
    pattern.isPrefixOf (word ++ tail) = pattern.isPrefixOf word := by
  induction pattern generalizing word with
  | nil => simp
  | cons c pattern ih =>
    have first := joined c List.mem_cons_self
    cases word with
    | nil =>
      cases tail with
      | nil => rfl
      | cons d rest =>
        have other : c ≠ d := by
          rintro rfl
          rw [(ended c rfl).1] at first
          cases first
        simp [List.isPrefixOf, other]
    | cons d word =>
      simp only [List.cons_append, List.isPrefixOf]
      rw [ih fun e member => joined e (List.mem_cons_of_mem c member)]

theorem Markup.first_mustache {name tail : List Char} (word : IsName name) (ended : EndsWord tail)
    (plain : startsMark name = false) :
    Markup.first ('{' :: '{' :: (name ++ tail)) = .mustache := by
  obtain ⟨c, rest, rfl⟩ := List.exists_cons_of_ne_nil word.filled
  have first := word.joined c List.mem_cons_self
  have sign : ∀ d, isPathChar d = false → ∀ more,
      ('{' :: '{' :: d :: more).isPrefixOf ('{' :: '{' :: (c :: rest ++ tail)) = false := by
    intro d outside more
    have other : d ≠ c := by
      rintro rfl
      rw [outside] at first
      cases first
    simp [List.isPrefixOf, other]
  simp only [startsMark, Bool.or_eq_false_iff] at plain
  have slash : ['{', '{', '/'].isPrefixOf ('{' :: '{' :: (c :: rest ++ tail)) = false := by
    simpa [List.isPrefixOf] using plain.1
  have mark : ['{', '{', 'e', 'l', 's', 'e'].isPrefixOf ('{' :: '{' :: (c :: rest ++ tail)) =
      false := by
    have inner : ['e', 'l', 's', 'e'].isPrefixOf (c :: rest ++ tail) = false := by
      rw [isPrefixOf_word_append (by decide) ended]
      exact plain.2
    exact inner
  have angle : ∀ more, ('<' :: more).isPrefixOf ('{' :: '{' :: (c :: rest ++ tail)) = false :=
    fun _ => rfl
  have opens : startsMustache ('{' :: '{' :: (c :: rest ++ tail)) = true :=
    startsMustache_iff.mpr ⟨_, rfl⟩
  simp only [Markup.first, angle, slash, mark, sign '~' (by decide), sign '!' (by decide),
    sign '#' (by decide), sign '{' (by decide), opens, Bool.false_eq_true, if_false, if_true]

theorem Markup.first_startTag {c : Char} (letter : Unicode.isAlphabetic c = true)
    (rest : List Char) : Markup.first ('<' :: c :: rest) = .startTag := by
  have other : ('/' == c) = false ∧ ('!' == c) = false := by
    constructor <;> rw [beq_eq_false_iff_ne] <;> rintro rfl <;> exact absurd letter (by decide)
  have mustache : startsMustache ('<' :: c :: rest) = false := rfl
  simp [Markup.first, mustache, List.isPrefixOf, other]

/-- Markup behind a text does not make markup of its last characters, unless a brace meets braces. -/
theorem startsMarkup_append_of_text {text tail : List Char} (filled : text ≠ [])
    (plain : startsMarkup text = false) (ended : tail = [] ∨ startsMarkup tail = true)
    (unbraced : Front.of tail = .brace → text.getLast? ≠ some '{') :
    startsMarkup (text ++ tail) = false := by
  have heads : ∀ c, tail.head? = some c → c = '<' ∨ c = '{' ∧ Front.of tail = .brace := by
    intro c first
    rcases ended with rfl | markup
    · cases first
    · rcases head?_of_startsMarkup markup with angle | opens
      · exact .inl (Option.some.inj (first.symm.trans angle))
      · obtain ⟨rest, rfl⟩ := startsMustache_iff.mp opens
        refine .inr ⟨(Option.some.inj first).symm, ?_⟩
        rw [Front.of_markup markup, Markup.front_of_braces]
  rw [← Bool.not_eq_true] at plain ⊢
  intro markup
  rw [startsMarkup_iff] at markup plain
  match text with
  | [] => exact filled rfl
  | [c] =>
    rcases markup with ⟨rest, shape⟩ | ⟨rest, shape⟩ | ⟨d, rest, shape, letter⟩ | ⟨rest, shape⟩
    · obtain ⟨rfl, rfl⟩ := List.cons.inj shape
      rcases heads '{' rfl with other | ⟨-, brace⟩
      · exact absurd other (by decide)
      · exact unbraced brace rfl
    · obtain ⟨rfl, rfl⟩ := List.cons.inj shape
      exact absurd (heads '/' rfl) (by simp)
    · obtain ⟨rfl, rfl⟩ := List.cons.inj shape
      rcases heads d rfl with rfl | ⟨rfl, -⟩ <;> exact absurd letter (by decide)
    · obtain ⟨rfl, rfl⟩ := List.cons.inj shape
      exact absurd (heads '!' rfl) (by simp)
  | c :: d :: text =>
    rcases markup with ⟨rest, shape⟩ | ⟨rest, shape⟩ | ⟨e, rest, shape, letter⟩ | ⟨rest, shape⟩
    · simp only [List.cons_append, List.cons.injEq] at shape
      obtain ⟨rfl, rfl, -⟩ := shape
      exact plain (.inl ⟨text, rfl⟩)
    · simp only [List.cons_append, List.cons.injEq] at shape
      obtain ⟨rfl, rfl, -⟩ := shape
      exact plain (.inr (.inl ⟨text, rfl⟩))
    · simp only [List.cons_append, List.cons.injEq] at shape
      obtain ⟨rfl, rfl, -⟩ := shape
      exact plain (.inr (.inr (.inl ⟨d, text, rfl, letter⟩)))
    · simp only [List.cons_append, List.cons.injEq] at shape
      obtain ⟨rfl, rfl, behind⟩ := shape
      match text with
      | [] =>
        obtain rfl : tail = '-' :: '-' :: rest := behind
        exact absurd (heads '-' rfl) (by simp)
      | [e] =>
        obtain ⟨-, rfl⟩ := List.cons.inj behind
        exact absurd (heads '-' rfl) (by simp)
      | e :: f :: text =>
        simp only [List.cons_append, List.cons.injEq] at behind
        obtain ⟨rfl, rfl, -⟩ := behind
        exact plain (.inr (.inr (.inr ⟨text, rfl⟩)))

/-- A text that was read is a stretch of its own before everything of the kind it was read before. -/
theorem textStretch_append {text tail : List Char} (read : TextIsRead text (Front.of tail)) :
    textStretch (text ++ tail) = text := by
  have ended : tail = [] ∨ startsMarkup tail = true := by
    by_cases nothing : tail = []
    · exact .inl nothing
    · right
      by_contra plain
      exact read.maximal (Front.of_text nothing (by simpa using plain))
  have whole := read.plain
  rw [textStretch_eq_stretch] at whole ⊢
  refine stretch_append ?_ ended
  intro rest suffix filled
  apply startsMarkup_append_of_text filled (stop_of_stretch_eq_self whole suffix filled) ended
  intro brace last
  apply read.unbraced brace
  obtain ⟨front, rfl⟩ := suffix
  rw [List.getLast?_append_of_ne_nil _ filled]
  exact last

theorem startsMarkup_of_textIsRead {text tail : List Char} (read : TextIsRead text (Front.of tail)) :
    startsMarkup (text ++ tail) = false := by
  have taken := textStretch_append read
  obtain ⟨c, rest, rfl⟩ := List.exists_cons_of_ne_nil read.filled
  rw [← Bool.not_eq_true]
  intro markup
  rw [List.cons_append] at markup taken
  rw [textStretch, if_pos markup] at taken
  cases taken

/-! ### Pieces -/

namespace Tree.Reading

/-- A text that is read as one tree before something of a kind. -/
def ReadsAsTree (text : List Char) (expected : Tree) (next : Front) : Prop :=
  ∀ (reading : Reading) (cursor : Cursor) (tail : List Char),
    cursor.rest = text ++ tail → Front.of tail = next →
    ∃ tree after, after.rest = tail ∧ tree.withoutSpans = expected ∧
      reading.run cursor = (reading.push tree).run after

/-- A text that is read as several trees before something of a kind. -/
def ReadsAsTrees (text : List Char) (expected : List Tree) (next : Front) : Prop :=
  ∀ (reading : Reading) (cursor : Cursor) (tail : List Char),
    cursor.rest = text ++ tail → Front.of tail = next →
    ∃ trees after, after.rest = tail ∧ withoutSpansAll trees = expected ∧
      reading.run cursor =
        run { reading with siblings := trees.reverse ++ reading.siblings } after

theorem readsAsTrees_nil (next : Front) : ReadsAsTrees [] [] next := by
  intro reading cursor tail shape _
  exact ⟨[], cursor, shape, rfl, rfl⟩

theorem readsAsTrees_cons {text others : List Char} {tree : Tree} {trees : List Tree}
    {between next : Front} (first : ReadsAsTree text tree between)
    (second : ReadsAsTrees others trees next)
    (begins : ∀ tail, Front.of tail = next → Front.of (others ++ tail) = between) :
    ReadsAsTrees (text ++ others) (tree :: trees) next := by
  intro reading cursor tail shape ended
  rw [List.append_assoc] at shape
  obtain ⟨read, behind, left, same, went⟩ := first reading cursor _ shape (begins tail ended)
  obtain ⟨rest, after, last, kept, ran⟩ := second (reading.push read) behind tail left ended
  refine ⟨read :: rest, after, last, by rw [withoutSpansAll, same, kept], ?_⟩
  rw [went, ran]
  simp [push]

variable {reading : Reading} {cursor : Cursor} {expected : Attribute → AttributeValue}

theorem ne_nil_of_startsMarkup {text : List Char} (markup : startsMarkup text = true) :
    text ≠ [] := by
  rintro rfl
  cases markup

theorem readsAsTree_text {literal : Text} {next : Front}
    (read : TextIsRead literal.chars.toList next) :
    ReadsAsTree literal.chars.toList (.leaf (.text (.made literal.chars))) next := by
  intro reading cursor tail shape ended
  subst ended
  have taken := textStretch_append read
  have plain : startsMarkup cursor.rest = false := by
    rw [shape]
    exact startsMarkup_of_textIsRead read
  have filled : cursor.rest ≠ [] := by
    rw [shape]
    simp [read.filled]
  refine ⟨.leaf (.text ⟨literal.chars, cursor.position,
    (cursor.skip literal.chars.toList.length).position⟩),
    cursor.skip literal.chars.toList.length, Cursor.rest_skip shape, rfl, ?_⟩
  rw [run_of_moves filled (.text plain)]
  simp only [readText, shape, taken, String.ofList_toList]

theorem readsAsTree_mustache {call : Call} (next : Front) (met : call.meets .legible = true)
    (plain : startsMark call.path.name.toList = false) :
    ReadsAsTree call.writeMustache (.leaf (.mustache call.reread)) next := by
  intro reading cursor tail shape _
  obtain ⟨args, written, begins⟩ := call.write_eq_name_append
  have front : cursor.rest =
      '{' :: '{' :: (call.path.name.toList ++ (args ++ '}' :: '}' :: tail)) := by
    simp [shape, Call.writeMustache, written]
  have first : Markup.first cursor.rest = .mustache := by
    rw [front]
    exact Markup.first_mustache (Call.Reading.isName_of_meets met)
      (endsWord_args begins (endsWord_brace _)) plain
  have markup : startsMarkup cursor.rest = true := startsMarkup_iff.mpr (.inl ⟨_, front⟩)
  obtain ⟨read, after, found, rest, same⟩ := Cursor.readMustache_write met shape
  refine ⟨.leaf (.mustache read), after, rest, ?_,
    run_of_moves (ne_nil_of_startsMarkup markup) (.mustache markup first found)⟩
  rw [withoutSpans, Leaf.withoutSpans, same]

/-- A written comment is read to its end. -/
theorem comment_written {comment : Comment} {tail : List Char} (read : comment.IsRead)
    (shape : cursor.rest = comment.write ++ tail) :
    ∃ (form : CommentForm) (after : Cursor), startsMarkup cursor.rest = true ∧
      Markup.first cursor.rest = .comment form ∧ form.isHtml = comment.html ∧
      (cursor.skip form.opening).pastTerminator? form.terminator =
        some (comment.value.toList, after) ∧ after.rest = tail := by
  obtain ⟨value, html, span⟩ := comment
  have closed : firstOccurrence (Comment.terminator ⟨value, html, span⟩)
      (value.toList ++ (Comment.terminator ⟨value, html, span⟩ ++ tail)) =
        some value.toList.length := by
    have again := firstOccurrence_take read tail
    rwa [List.take_left] at again
  cases html with
  | true =>
    have whole : cursor.rest =
        ['<', '!', '-', '-'] ++ (value.toList ++ (['-', '-', '>'] ++ tail)) := by
      simp [shape, Comment.write]
    obtain ⟨after, past, rest⟩ := Cursor.pastTerminator?_of_shape (Cursor.rest_skip whole) closed
    exact ⟨.html, after, startsMarkup_iff.mpr (.inr (.inr (.inr ⟨_, whole⟩))), by rw [whole]; rfl,
      rfl, past, rest⟩
  | false =>
    have whole : cursor.rest =
        ['{', '{', '!', '-', '-'] ++ (value.toList ++ (['-', '-', '}', '}'] ++ tail)) := by
      simp [shape, Comment.write]
    obtain ⟨after, past, rest⟩ := Cursor.pastTerminator?_of_shape (Cursor.rest_skip whole) closed
    exact ⟨.long, after, startsMarkup_iff.mpr (.inl ⟨_, whole⟩), by rw [whole]; rfl, rfl, past, rest⟩

theorem readsAsTree_comment {comment : Comment} (next : Front) (read : comment.IsRead) :
    ReadsAsTree comment.write (.leaf (.comment comment.withoutSpan)) next := by
  intro reading cursor tail shape _
  obtain ⟨form, after, markup, first, same, past, rest⟩ := comment_written read shape
  refine ⟨_, after, rest, ?_,
    run_of_moves (ne_nil_of_startsMarkup markup) (.comment markup first past)⟩
  rw [String.ofList_toList, same]
  rfl

/-- A written start tag begins like one and with its name. -/
theorem startTag_begins {element : Element} {tail : List Char}
    (legal : TagIsRead element.tag element.attributes)
    (shape : cursor.rest = element.writeStart ++ tail) :
    startsMarkup cursor.rest = true ∧ Markup.first cursor.rest = .startTag ∧
      tagBehind cursor 1 = element.tag.toList ∧
      (behindTag cursor 1).rest = element.attributes.flatMap Attribute.write ++
        (Cursor.endOfTag element.selfClosing ++ tail) := by
  obtain ⟨c, letters, word, letter⟩ := legal.begins
  have inner : (cursor.skip 1).rest = element.tag.toList ++
      (element.attributes.flatMap Attribute.write ++
        (Cursor.endOfTag element.selfClosing ++ tail)) := by
    simp [Cursor.skip, shape, Element.writeStart, Cursor.endOfTag]
  have front : cursor.rest = '<' :: c :: (letters ++ (element.attributes.flatMap Attribute.write ++
      (Cursor.endOfTag element.selfClosing ++ tail))) := by
    simp [shape, Element.writeStart, Cursor.endOfTag, word]
  have ended : ∀ d ∈ (element.attributes.flatMap Attribute.write ++
      (Cursor.endOfTag element.selfClosing ++ tail)).head?, isTagChar d = false := by
    intro d first
    rcases Cursor.head?_attributes first with rfl | rfl <;> decide
  have name : tagBehind cursor 1 = element.tag.toList :=
    Cursor.run_of_shape inner legal.joined ended
  refine ⟨startsMarkup_iff.mpr (.inr (.inr (.inl ⟨c, _, front, letter⟩))), ?_, name, ?_⟩
  · rw [front]
    exact Markup.first_startTag letter _
  · rw [behindTag, name]
    exact Cursor.rest_skip inner

/-- A written start tag is read to its end. -/
theorem startTag_written {element : Element} {tail : List Char}
    (legal : TagIsRead element.tag element.attributes)
    (reads : ∀ attr ∈ element.attributes, attr.value.ReadsAs (expected attr))
    (shape : cursor.rest = element.writeStart ++ tail) :
    ∃ attrs after,
      (behindTag cursor 1).readAttributes element.tag = .ok (attrs, element.selfClosing, after) ∧
      after.rest = tail ∧
      attrs.map Attribute.withoutSpans = element.attributes.map (Attribute.readAs expected) :=
  Cursor.readAttributes_of_readsAs expected element.tag element.selfClosing legal.attributes reads
    (startTag_begins legal shape).2.2.2

theorem readsAsTree_lone {element : Element} (next : Front)
    (legal : TagIsRead element.tag element.attributes)
    (reads : ∀ attr ∈ element.attributes, attr.value.ReadsAs (expected attr))
    (whole : (element.selfClosing || isVoidTag element.tag) = true) :
    ReadsAsTree element.writeStart (.branch (.element (element.readAs expected)) []) next := by
  intro reading cursor tail shape _
  obtain ⟨markup, first, name, -⟩ := startTag_begins legal shape
  obtain ⟨attrs, after, found, rest, same⟩ := startTag_written legal reads shape
  refine ⟨_, after, rest, ?_, run_of_moves (ne_nil_of_startsMarkup markup)
    (.lone markup first (by rw [name, String.ofList_toList]) found whole)⟩
  rw [withoutSpans, Head.withoutSpans, Element.withoutSpans, same]
  rfl

/-- A closing tag begins like one. -/
theorem front_writeEnd (element : Element) (tail : List Char) :
    Front.of (element.writeEnd ++ tail) = .angle := by
  have markup : startsMarkup (element.writeEnd ++ tail) = true :=
    startsMarkup_iff.mpr (.inr (.inl ⟨element.tag.toList ++ ['>'] ++ tail, rfl⟩))
  rw [Front.of_markup markup]
  exact Markup.front_of_angle _

/-- A written end tag is read to its end. -/
theorem endTag_written {element : Element} {tail : List Char}
    (joined : ∀ c ∈ element.tag.toList, isTagChar c = true)
    (shape : cursor.rest = element.writeEnd ++ tail) :
    startsMarkup cursor.rest = true ∧ Markup.first cursor.rest = .closingTag ∧
      tagBehind cursor 2 = element.tag.toList ∧
      ∃ after, (behindTag cursor 2).skipBlank.eat? ['>'] = some after ∧ after.rest = tail := by
  have whole : cursor.rest = ['<', '/'] ++ (element.tag.toList ++ (['>'] ++ tail)) := by
    simp [shape, Element.writeEnd]
  have inner := Cursor.rest_skip whole
  have name : tagBehind cursor 2 = element.tag.toList :=
    Cursor.run_of_shape inner joined (by rintro _ ⟨⟩; decide)
  have angle : (behindTag cursor 2).rest = '>' :: tail := by
    rw [behindTag, name]
    exact Cursor.rest_skip inner
  have last : (behindTag cursor 2).skipBlank.rest = ['>'] ++ tail :=
    Cursor.rest_skipBlank_cons angle (by decide)
  refine ⟨startsMarkup_iff.mpr (.inr (.inl ⟨_, whole⟩)), by rw [whole]; rfl, name, ?_⟩
  exact ⟨_, Cursor.eat?_of_shape last, Cursor.rest_skip last⟩

theorem readsAsTree_element {element : Element} {content : List Char} {trees : List Tree}
    (next : Front) (legal : TagIsRead element.tag element.attributes)
    (values : ∀ attr ∈ element.attributes, attr.value.ReadsAs (expected attr))
    (ordinary : (element.selfClosing || isVoidTag element.tag) = false)
    (reads : ReadsAsTrees content trees .angle) :
    ReadsAsTree (element.writeStart ++ content ++ element.writeEnd)
      (.branch (.element (element.readAs expected)) trees) next := by
  intro reading cursor tail shape _
  rw [List.append_assoc, List.append_assoc] at shape
  simp only [Bool.or_eq_false_iff] at ordinary
  obtain ⟨markup, first, name, -⟩ := startTag_begins legal shape
  obtain ⟨attrs, inside, found, left, same⟩ := startTag_written legal values shape
  rw [ordinary.1] at found
  have entered : reading.run cursor =
      (reading.enter (.element element.tag attrs cursor.position)).run inside :=
    run_of_moves (ne_nil_of_startsMarkup markup)
      (.enterElement markup first (by rw [name, String.ofList_toList]) found ordinary.2)
  obtain ⟨children, behind, rest, kept, ran⟩ :=
    reads (reading.enter (.element element.tag attrs cursor.position)) inside
      (element.writeEnd ++ tail) left (front_writeEnd element tail)
  obtain ⟨markup', first', name', after, eaten, last⟩ := endTag_written legal.joined rest
  have opened : ({ reading.enter (.element element.tag attrs cursor.position) with
      siblings := children.reverse ++ [] } : Reading).branches =
        ⟨.element element.tag attrs cursor.position, reading.siblings⟩ :: reading.branches := rfl
  have closed := run_of_moves (ne_nil_of_startsMarkup markup')
    (.closeElement markup' first' opened (by rw [name', String.ofList_toList]) eaten)
  refine ⟨_, after, last, ?_, entered.trans (ran.trans closed)⟩
  simp only [withoutSpans, Head.withoutSpans, Element.withoutSpans, same, Element.readAs,
    ordinary.1, List.append_nil, List.reverse_reverse, kept]

/-- The opening of a block is read to its end. -/
theorem blockStart_written {block : Block} {tail : List Char}
    (met : block.call.meets .legible = true)
    (shape : cursor.rest = block.writeStart ++ tail) :
    startsMarkup cursor.rest = true ∧ Markup.first cursor.rest = .blockOpen 3 ∧
      ∃ call after, (cursor.skip 3).readCall cursor.position = .ok (call, after) ∧
        after.rest = tail ∧ call.withoutSpans = block.call.reread := by
  have whole : cursor.rest =
      ['{', '{', '#'] ++ (block.call.write ++ '}' :: '}' :: tail) := by
    simp [shape, Block.writeStart, Block.call, Call.write]
  obtain ⟨call, after, found, rest, same⟩ :=
    Cursor.readCall_write cursor.position met (Cursor.rest_skip whole)
  exact ⟨startsMarkup_iff.mpr (.inl ⟨_, whole⟩), by rw [whole]; rfl, call, after, found, rest, same⟩

/-- The closing of a block is read to its end. -/
theorem blockEnd_written {block : Block} {tail : List Char}
    (word : IsName block.path.name.toList) (shape : cursor.rest = block.writeEnd ++ tail) :
    startsMarkup cursor.rest = true ∧ Markup.first cursor.rest = .blockClose 3 ∧
      ∃ path behind after, (cursor.skip 3).readPath = .ok (path, behind) ∧
        path.name = block.path.name ∧ behind.readClose = .ok after ∧ after.rest = tail := by
  have whole : cursor.rest =
      ['{', '{', '/'] ++ (block.path.name.toList ++ '}' :: '}' :: tail) := by
    simp [shape, Block.writeEnd]
  obtain ⟨path, behind, found, rest, same⟩ :=
    Cursor.readPath_write word (endsWord_brace _) (Cursor.rest_skip whole)
  obtain ⟨after, closed, last⟩ := Cursor.readClose_write rest
  exact ⟨startsMarkup_iff.mpr (.inl ⟨_, whole⟩), by rw [whole]; rfl,
    path, behind, after, found, same, closed, last⟩

/-- The closing of a block begins like one. -/
theorem front_writeBlockEnd (block : Block) (tail : List Char) :
    Front.of (block.writeEnd ++ tail) = .brace := by
  have markup : startsMarkup (block.writeEnd ++ tail) = true :=
    startsMarkup_iff.mpr (.inl ⟨'/' :: (block.path.name.toList ++ ['}', '}'] ++ tail), rfl⟩)
  rw [Front.of_markup markup]
  exact Markup.front_of_braces _

theorem readsAsTree_block {block : Block} {content : List Char} {trees : List Tree}
    (next : Front) (met : block.call.meets .legible = true)
    (reads : ReadsAsTrees content trees .brace) :
    ReadsAsTree (block.writeStart ++ content ++ block.writeEnd)
      (.branch (.block block.reread) trees) next := by
  intro reading cursor tail shape _
  rw [List.append_assoc, List.append_assoc] at shape
  obtain ⟨markup, first, call, inside, found, left, same⟩ := blockStart_written met shape
  have entered : reading.run cursor =
      (reading.enter (.block call cursor.position inside.position)).run inside :=
    run_of_moves (ne_nil_of_startsMarkup markup) (.enterBlock markup first found)
  obtain ⟨children, behind, rest, kept, ran⟩ :=
    reads (reading.enter (.block call cursor.position inside.position)) inside
      (block.writeEnd ++ tail) left (front_writeBlockEnd block tail)
  obtain ⟨markup', first', path, between, after, named, name, ended, last⟩ :=
    blockEnd_written (Call.Reading.isName_of_meets met) rest
  have opened : ({ reading.enter (.block call cursor.position inside.position) with
      siblings := children.reverse ++ [] } : Reading).branches =
        ⟨.block call cursor.position inside.position, reading.siblings⟩ :: reading.branches := rfl
  obtain ⟨callee, params, hash, span⟩ := call
  simp only [Call.withoutSpans, Block.call, Call.reread, Call.mk.injEq] at same
  have word : path.name = callee.name := name.trans (congrArg Path.name same.1).symm
  have closed := run_of_moves (ne_nil_of_startsMarkup markup')
    (.closeBlock markup' first' opened named word ended)
  refine ⟨_, after, last, ?_, entered.trans (ran.trans closed)⟩
  simp only [withoutSpans, Head.withoutSpans, Block.withoutSpans, Block.reread, same,
    List.append_nil, List.reverse_reverse, kept]

end Tree.Reading

end LayoutMarkup
