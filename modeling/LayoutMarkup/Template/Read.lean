import LayoutMarkup.Template.StartTag
import LayoutMarkup.Template.Tree

/-! Reading templates. The source is taken piece by piece: a text, a mustache, a comment, the opening
or the closing of an element or block. Branches that are still open wait on a stack, each with the
siblings that stand before it. -/

namespace LayoutMarkup

/-- Whether a start tag comes first: an angle bracket and a letter. -/
def startsTag : List Char → Bool
  | '<' :: c :: _ => Unicode.isAlphabetic c
  | _ => false

/-- Whether something else than text comes first. -/
def startsMarkup (text : List Char) : Bool :=
  startsMustache text || ['<', '/'].isPrefixOf text || startsTag text ||
    ['<', '!', '-', '-'].isPrefixOf text

/-- The text before the next markup. -/
def textStretch : List Char → List Char
  | [] => []
  | c :: rest => if startsMarkup (c :: rest) then [] else c :: textStretch rest

/-- A branch whose end has not been read. -/
inductive Opening where
  | element (tag : String) (attributes : List Attribute) (start : Position)
  | block (call : Call) (start bodyStart : Position)

/-- What is missing at the end of the source while a branch is open. -/
def Opening.missing : Opening → Cause
  | .element .. => .unclosedElement
  | .block .. => .unclosedBlock

/-- An open branch and the trees before it, latest first. -/
structure OpenBranch where
  opening : Opening
  before : List Tree

/-- The three forms of comments. -/
inductive CommentForm where
  | html
  | long
  | short

def CommentForm.isHtml : CommentForm → Bool
  | .html => true
  | .long | .short => false

/-- How many characters begin a comment. -/
def CommentForm.opening : CommentForm → Nat
  | .html => 4
  | .long => 5
  | .short => 3

def CommentForm.terminator : CommentForm → List Char
  | .html => ['-', '-', '>']
  | .long => ['-', '-', '}', '}']
  | .short => ['}', '}']

/-- The kinds of markup. The braces and sign of a block may have a `~` among them, and so have three
or four characters. -/
inductive Markup where
  | closingTag
  | blockClose (opening : Nat)
  | elseMark
  | comment (form : CommentForm)
  | blockOpen (opening : Nat)
  | tripleStash
  | mustache
  | startTag

/-- The markup that comes first in a text. Only the first characters are looked at, so that every
mustache whose path begins with `else` counts as the mark of an else branch. -/
def Markup.first (text : List Char) : Markup :=
  if ['<', '/'].isPrefixOf text then .closingTag
  else if ['{', '{', '/'].isPrefixOf text then .blockClose 3
  else if ['{', '{', '~', '/'].isPrefixOf text then .blockClose 4
  else if ['{', '{', 'e', 'l', 's', 'e'].isPrefixOf text then .elseMark
  else if ['<', '!', '-', '-'].isPrefixOf text then .comment .html
  else if ['{', '{', '!', '-', '-'].isPrefixOf text then .comment .long
  else if ['{', '{', '!'].isPrefixOf text then .comment .short
  else if ['{', '{', '#'].isPrefixOf text then .blockOpen 3
  else if ['{', '{', '~', '#'].isPrefixOf text then .blockOpen 4
  else if ['{', '{', '{'].isPrefixOf text then .tripleStash
  else if startsMustache text then .mustache
  else .startTag

/-- How far the reading of a template has come; `siblings` holds the trees of the innermost open
branch, latest first. -/
structure Tree.Reading where
  branches : List OpenBranch
  siblings : List Tree

namespace Tree.Reading

def start : Reading := ⟨[], []⟩

def push (reading : Reading) (tree : Tree) : Reading :=
  { reading with siblings := tree :: reading.siblings }

def enter (reading : Reading) (opening : Opening) : Reading :=
  ⟨⟨opening, reading.siblings⟩ :: reading.branches, []⟩

def readText (reading : Reading) (cursor : Cursor) : Reading × Cursor :=
  let chars := textStretch cursor.rest
  let after := cursor.skip chars.length
  (reading.push (.leaf (.text ⟨String.ofList chars, cursor.position, after.position⟩)), after)

def readMustache (reading : Reading) (cursor : Cursor) : Except Fault (Reading × Cursor) :=
  match cursor.readMustache with
  | .error fault => .error fault
  | .ok (call, after) => .ok (reading.push (.leaf (.mustache call)), after)

def readComment (reading : Reading) (cursor : Cursor) (form : CommentForm) :
    Except Fault (Reading × Cursor) :=
  let front := cursor.skip form.opening
  match front.pastTerminator? form.terminator with
  | none => .error (front.fault (.missingTerminator form.terminator))
  | some (value, after) =>
    let comment : Comment := ⟨String.ofList value, form.isHtml, cursor.position, after.position⟩
    .ok (reading.push (.leaf (.comment comment)), after)

/-- Read a start tag. An element that ends with it gets no children. -/
def openElement (reading : Reading) (cursor : Cursor) : Except Fault (Reading × Cursor) :=
  let front := cursor.skip 1
  let name := front.run isTagChar
  let tag := String.ofList name
  match (front.skip name.length).readAttributes tag with
  | .error fault => .error fault
  | .ok (attributes, selfClosing, after) =>
    if selfClosing || isVoidTag tag then
      let element : Element := ⟨tag, attributes, selfClosing, cursor.position, after.position⟩
      .ok (reading.push (.branch (.element element) []), after)
    else .ok (reading.enter (.element tag attributes cursor.position), after)

/-- Read a closing tag, which has to fit the innermost open branch. -/
def closeElement (reading : Reading) (cursor : Cursor) : Except Fault (Reading × Cursor) :=
  match reading.branches with
  | ⟨.element tag attributes start, before⟩ :: outer =>
    let front := cursor.skip 2
    let name := front.run isTagChar
    let behind := (front.skip name.length).skipBlank
    if String.ofList name ≠ tag then
      .error (cursor.fault (.mismatchedTag (String.ofList name) tag))
    else
      match behind.eat? ['>'] with
      | none => .error (behind.fault (.expectedText ['>']))
      | some after =>
        let element : Element := ⟨tag, attributes, false, start, after.position⟩
        let tree := Tree.branch (.element element) reading.siblings.reverse
        .ok (⟨outer, tree :: before⟩, after)
  | _ => .error (cursor.fault .unexpectedClosingTag)

/-- Read the opening of a block; its braces and sign have the given length. -/
def openBlock (reading : Reading) (cursor : Cursor) (opening : Nat) :
    Except Fault (Reading × Cursor) :=
  match (cursor.skip opening).readCall cursor.position with
  | .error fault => .error fault
  | .ok (call, after) =>
    .ok (reading.enter (.block call cursor.position after.position), after)

/-- Read the closing of a block, which has to name the path of the innermost open branch. -/
def closeBlock (reading : Reading) (cursor : Cursor) (opening : Nat) :
    Except Fault (Reading × Cursor) :=
  match reading.branches with
  | ⟨.block call start bodyStart, before⟩ :: outer =>
    match (cursor.skip opening).readPath with
    | .error fault => .error fault
    | .ok (path, behind) =>
      if path.name ≠ call.path.name then
        .error (cursor.fault (.mismatchedBlock path.name call.path.name))
      else
        match behind.readClose with
        | .error fault => .error fault
        | .ok after =>
          let block : Block :=
            { path := call.path
              params := call.params
              hash := call.hash
              bodySpan := ⟨bodyStart, cursor.position⟩
              span := ⟨start, after.position⟩ }
          let tree := Tree.branch (.block block) reading.siblings.reverse
          .ok (⟨outer, tree :: before⟩, after)
  | _ => .error (cursor.fault .unexpectedBlockClose)

def readMarkup (reading : Reading) (cursor : Cursor) : Except Fault (Reading × Cursor) :=
  match Markup.first cursor.rest with
  | .closingTag => reading.closeElement cursor
  | .blockClose opening => reading.closeBlock cursor opening
  | .elseMark => .error (cursor.fault .elseBlock)
  | .comment form => reading.readComment cursor form
  | .blockOpen opening => reading.openBlock cursor opening
  | .tripleStash => .error (cursor.fault .tripleStash)
  | .mustache => reading.readMustache cursor
  | .startTag => reading.openElement cursor

/-- Read the next piece of the source. -/
def step (reading : Reading) (cursor : Cursor) : Except Fault (Reading × Cursor) :=
  if startsMarkup cursor.rest then reading.readMarkup cursor else .ok (reading.readText cursor)

theorem length_of_readText (reading : Reading) {cursor : Cursor} (filled : cursor.rest ≠ [])
    (plain : startsMarkup cursor.rest = false) :
    (reading.readText cursor).2.rest.length < cursor.rest.length := by
  obtain ⟨c, rest, shape⟩ := List.exists_cons_of_ne_nil filled
  rw [shape] at plain
  simp only [readText, Cursor.length_skip, shape, textStretch, plain, Bool.false_eq_true,
    if_false, List.length_cons]
  omega

theorem length_of_readMustache {reading reading' : Reading} {cursor after : Cursor}
    (found : reading.readMustache cursor = .ok (reading', after)) :
    after.rest.length < cursor.rest.length := by
  unfold readMustache at found
  split at found
  · cases found
  · rename_i mustache
    cases found
    exact Cursor.length_of_readMustache mustache

theorem length_skip_lt {cursor : Cursor} {count : Nat} (positive : 0 < count)
    (filled : cursor.rest ≠ []) : (cursor.skip count).rest.length < cursor.rest.length := by
  have length := List.length_pos_iff.mpr filled
  rw [Cursor.length_skip]
  omega

theorem length_of_readComment {reading reading' : Reading} {cursor after : Cursor}
    {form : CommentForm} (filled : cursor.rest ≠ [])
    (found : reading.readComment cursor form = .ok (reading', after)) :
    after.rest.length < cursor.rest.length := by
  have positive : 0 < form.opening := by cases form <;> decide
  simp only [readComment] at found
  split at found
  · cases found
  · rename_i past
    cases found
    simp only [Cursor.pastTerminator?, Option.map_eq_some_iff, Prod.mk.injEq] at past
    obtain ⟨count, -, -, rfl⟩ := past
    exact Nat.lt_of_le_of_lt (Cursor.length_skip_le _ _) (length_skip_lt positive filled)

theorem length_of_openElement {reading reading' : Reading} {cursor after : Cursor}
    (filled : cursor.rest ≠ [])
    (found : reading.openElement cursor = .ok (reading', after)) :
    after.rest.length < cursor.rest.length := by
  have front : (cursor.skip 1).rest.length < cursor.rest.length :=
    length_skip_lt (by decide) filled
  simp only [openElement] at found
  split at found
  · cases found
  · rename_i attributes
    have rest := Cursor.length_of_readAttributes attributes
    have named := Cursor.length_skip_le (cursor.skip 1) ((cursor.skip 1).run isTagChar).length
    split at found <;> cases found <;> omega

theorem length_of_closeElement {reading reading' : Reading} {cursor after : Cursor}
    (found : reading.closeElement cursor = .ok (reading', after)) :
    after.rest.length < cursor.rest.length := by
  unfold closeElement at found
  split at found
  · dsimp only at found
    split at found
    · cases found
    · split at found
      · cases found
      · rename_i eaten
        cases found
        have shorter := Cursor.length_of_eat? eaten
        have blank := Cursor.length_skipBlank_le
          ((cursor.skip 2).skip ((cursor.skip 2).run isTagChar).length)
        have named := Cursor.length_skip_le (cursor.skip 2) ((cursor.skip 2).run isTagChar).length
        have front := cursor.length_skip_le 2
        simp only [List.length_cons, List.length_nil] at shorter
        omega
  · cases found

theorem length_of_openBlock {reading reading' : Reading} {cursor after : Cursor} {opening : Nat}
    (found : reading.openBlock cursor opening = .ok (reading', after)) :
    after.rest.length < cursor.rest.length := by
  unfold openBlock at found
  split at found
  · cases found
  · rename_i call
    cases found
    exact Nat.lt_of_lt_of_le (Cursor.length_of_readCall call) (cursor.length_skip_le _)

theorem length_of_closeBlock {reading reading' : Reading} {cursor after : Cursor} {opening : Nat}
    (found : reading.closeBlock cursor opening = .ok (reading', after)) :
    after.rest.length < cursor.rest.length := by
  unfold closeBlock at found
  repeat' split at found
  · cases found
  · cases found
  · cases found
  · rename_i path _ _ _ close
    cases found
    exact Nat.lt_trans (Cursor.length_of_readClose close)
      (Nat.lt_of_lt_of_le (Cursor.length_of_readPath path) (cursor.length_skip_le _))
  · cases found

theorem length_of_readMarkup {reading reading' : Reading} {cursor after : Cursor}
    (filled : cursor.rest ≠ []) (found : reading.readMarkup cursor = .ok (reading', after)) :
    after.rest.length < cursor.rest.length := by
  unfold readMarkup at found
  split at found
  · exact length_of_closeElement found
  · exact length_of_closeBlock found
  · cases found
  · exact length_of_readComment filled found
  · exact length_of_openBlock found
  · cases found
  · exact length_of_readMustache found
  · exact length_of_openElement filled found

/-- Every piece has at least one character. -/
theorem length_of_step {reading reading' : Reading} {cursor after : Cursor}
    (filled : cursor.rest ≠ []) (found : reading.step cursor = .ok (reading', after)) :
    after.rest.length < cursor.rest.length := by
  unfold step at found
  split at found
  · exact length_of_readMarkup filled found
  · rename_i plain
    have shorter := length_of_readText reading filled (by simpa using plain)
    rw [Except.ok.inj found] at shorter
    exact shorter

/-- Read on to the end of the source. -/
def run (reading : Reading) (cursor : Cursor) : Except Fault (List Tree × Cursor) :=
  if _filled : cursor.rest = [] then
    match reading.branches with
    | [] => .ok (reading.siblings.reverse, cursor)
    | innermost :: _ => .error (cursor.fault innermost.opening.missing)
  else
    match _step : reading.step cursor with
    | .error fault => .error fault
    | .ok (reading, after) => run reading after
termination_by cursor.rest.length
decreasing_by exact length_of_step _filled _step

end Tree.Reading

/-- The trees of a source text, and the cursor at its end. -/
def Tree.read (source : String) : Except Fault (List Tree × Cursor) :=
  Tree.Reading.start.run (.ofString source)

/-- The template that a source text is. -/
def Template.read (source : String) : Except Fault Template :=
  match Tree.read source with
  | .error fault => .error fault
  | .ok (trees, cursor) => .ok (.ofTrees trees ⟨.start, cursor.position⟩)

end LayoutMarkup
