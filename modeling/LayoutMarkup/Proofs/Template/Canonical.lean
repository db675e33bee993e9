import LayoutMarkup.Proofs.Template.StartTags

/-! The form of trees that were read. Texts are not empty, are followed by no other text and hold no
markup, and none that ends with a brace stands before markup that begins with one. What follows a text
matters only by its kind, and this kind is the same in the source and in what is written from it. -/

namespace LayoutMarkup

/-- What kind of thing begins at a place: nothing, text, or markup with an angle or a brace. -/
inductive Front where
  | stop
  | text
  | angle
  | brace
deriving DecidableEq

namespace Front

def of : List Char → Front
  | [] => .stop
  | c :: rest =>
    if startsMarkup (c :: rest) then if c = '{' then .brace else .angle
    else .text

end Front

def CommentForm.front : CommentForm → Front
  | .html => .angle
  | .long | .short => .brace

def Markup.front : Markup → Front
  | .closingTag | .startTag => .angle
  | .comment form => form.front
  | _ => .brace

def Leaf.front : Leaf → Front
  | .text _ => .text
  | .mustache _ => .brace
  | .comment remark => if remark.html then .angle else .brace

/-- With what the written form of a branch begins, and with what the end of its children. -/
def Head.front : Head → Front
  | .program _ => .stop
  | .element _ => .angle
  | .block _ => .brace

def Tree.front : Tree → Front
  | .leaf content => content.front
  | .branch head _ => head.front

/-- With what trees begin before something else. -/
def Tree.frontAll (trees : List Tree) (next : Front) : Front :=
  match trees with
  | [] => next
  | tree :: _ => tree.front

/-- What holds of a text that was read before something of a kind. -/
structure TextIsRead (text : List Char) (next : Front) : Prop where
  filled : text ≠ []
  plain : textStretch text = text
  maximal : next ≠ .text
  unbraced : next = .brace → text.getLast? ≠ some '{'

/-- The end of the written form of a comment. -/
def Comment.terminator (comment : Comment) : List Char :=
  (if comment.html then CommentForm.html else .long).terminator

/-- What holds of a comment that was read: its written form ends no earlier than it should. -/
def Comment.IsRead (comment : Comment) : Prop :=
  firstOccurrence comment.terminator (comment.value.toList ++ comment.terminator) =
    some comment.value.toList.length

def Leaf.IsRead (next : Front) : Leaf → Prop
  | .text literal => TextIsRead literal.chars.toList next
  | .mustache call => call.meets .asRead = true
  | .comment remark => remark.IsRead

/-- The tag of an element that was read, with its attributes. -/
structure TagIsRead (tag : String) (attributes : List Attribute) : Prop where
  begins : ∃ c rest, tag.toList = c :: rest ∧ Unicode.isAlphabetic c = true
  joined : ∀ c ∈ tag.toList, isTagChar c = true
  attributes : ∀ attr ∈ attributes, attr.IsRead

/-- The call in the opening mustache of a block. -/
def Block.call (block : Block) : Call := ⟨block.path, block.params, block.hash, .nowhere⟩

def Head.IsRead : Head → Prop
  | .program _ => False
  | .element el => TagIsRead el.tag el.attributes
  | .block inner => inner.call.meets .asRead = true

/-- Whether a branch has no children because its start tag is all of it. -/
def Head.isLone : Head → Bool
  | .element el => el.selfClosing || isVoidTag el.tag
  | _ => false

namespace Tree

mutual

/-- What holds of a tree that was read before something of a kind. -/
def IsRead : Tree → Front → Prop
  | .leaf content, next => content.IsRead next
  | .branch head trees, _ =>
    head.IsRead ∧ (head.isLone = true → trees = []) ∧ AllRead trees head.front

def AllRead : List Tree → Front → Prop
  | [], _ => True
  | tree :: trees, next => IsRead tree (frontAll trees next) ∧ AllRead trees next

end

theorem frontAll_concat (trees : List Tree) (tree : Tree) (next : Front) :
    frontAll (trees ++ [tree]) next = frontAll trees tree.front := by
  cases trees <;> rfl

theorem allRead_concat {trees : List Tree} {tree : Tree} {next : Front} :
    AllRead (trees ++ [tree]) next ↔ AllRead trees tree.front ∧ tree.IsRead next := by
  induction trees with
  | nil => simp [AllRead, frontAll]
  | cons first trees ih =>
    simp only [List.cons_append, AllRead, ih, frontAll_concat]
    constructor
    · rintro ⟨one, others, last⟩
      exact ⟨⟨one, others⟩, last⟩
    · rintro ⟨⟨one, others⟩, last⟩
      exact ⟨one, others, last⟩

end Tree

theorem startsMarkup_iff {text : List Char} :
    startsMarkup text = true ↔
      (∃ rest, text = '{' :: '{' :: rest) ∨ (∃ rest, text = '<' :: '/' :: rest) ∨
      (∃ c rest, text = '<' :: c :: rest ∧ Unicode.isAlphabetic c = true) ∨
      ∃ rest, text = '<' :: '!' :: '-' :: '-' :: rest := by
  constructor
  · intro markup
    simp only [startsMarkup, Bool.or_eq_true] at markup
    rcases markup with ((mustache | closing) | tag) | comment
    · exact .inl (startsMustache_iff.mp mustache)
    · obtain ⟨rest, rfl⟩ := List.isPrefixOf_iff_prefix.mp closing
      exact .inr (.inl ⟨rest, rfl⟩)
    · unfold startsTag at tag
      split at tag
      · rename_i c rest
        exact .inr (.inr (.inl ⟨c, rest, rfl, tag⟩))
      · cases tag
    · obtain ⟨rest, rfl⟩ := List.isPrefixOf_iff_prefix.mp comment
      exact .inr (.inr (.inr ⟨rest, rfl⟩))
  · rintro (⟨rest, rfl⟩ | ⟨rest, rfl⟩ | ⟨c, rest, rfl, letter⟩ | ⟨rest, rfl⟩)
    · simp [startsMarkup, startsMustache, List.isPrefixOf]
    · simp [startsMarkup, List.isPrefixOf]
    · simp [startsMarkup, startsTag, letter]
    · simp [startsMarkup, List.isPrefixOf]

theorem startsMarkup_append {text : List Char} (markup : startsMarkup text = true)
    (tail : List Char) : startsMarkup (text ++ tail) = true := by
  rw [startsMarkup_iff] at markup ⊢
  rcases markup with ⟨rest, rfl⟩ | ⟨rest, rfl⟩ | ⟨c, rest, rfl, letter⟩ | ⟨rest, rfl⟩
  · exact .inl ⟨rest ++ tail, rfl⟩
  · exact .inr (.inl ⟨rest ++ tail, rfl⟩)
  · exact .inr (.inr (.inl ⟨c, rest ++ tail, rfl, letter⟩))
  · exact .inr (.inr (.inr ⟨rest ++ tail, rfl⟩))

/-- Markup begins with an angle bracket or with two braces. -/
theorem head?_of_startsMarkup {text : List Char} (markup : startsMarkup text = true) :
    text.head? = some '<' ∨ startsMustache text = true := by
  rcases startsMarkup_iff.mp markup with ⟨rest, rfl⟩ | ⟨rest, rfl⟩ | ⟨c, rest, rfl, -⟩ | ⟨rest, rfl⟩
  · exact .inr (startsMustache_iff.mpr ⟨rest, rfl⟩)
  · exact .inl rfl
  · exact .inl rfl
  · exact .inl rfl

private theorem front_ite {condition : Prop} [Decidable condition] {first second : Markup}
    {front : Front} (one : first.front = front) (other : second.front = front) :
    (if condition then first else second).front = front := by
  split
  · exact one
  · exact other

theorem Markup.front_of_angle (rest : List Char) : (Markup.first ('<' :: rest)).front = .angle := by
  have braces : ∀ c more, ('{' :: c :: more).isPrefixOf ('<' :: rest) = false := fun _ _ => rfl
  have mustache : startsMustache ('<' :: rest) = false := rfl
  simp only [Markup.first, braces, mustache, Bool.false_eq_true, if_false]
  exact front_ite rfl (front_ite rfl rfl)

theorem Markup.front_of_braces (rest : List Char) :
    (Markup.first ('{' :: '{' :: rest)).front = .brace := by
  have angle : ∀ more, ('<' :: more).isPrefixOf ('{' :: '{' :: rest) = false := fun _ => rfl
  have mustache : startsMustache ('{' :: '{' :: rest) = true := startsMustache_iff.mpr ⟨rest, rfl⟩
  simp only [Markup.first, angle, mustache, Bool.false_eq_true, if_false, if_true]
  exact front_ite rfl (front_ite rfl (front_ite rfl (front_ite rfl (front_ite rfl
    (front_ite rfl (front_ite rfl (front_ite rfl rfl)))))))

theorem Front.of_markup {text : List Char} (markup : startsMarkup text = true) :
    Front.of text = (Markup.first text).front := by
  rcases head?_of_startsMarkup markup with angle | opens
  · obtain ⟨rest, rfl⟩ := List.head?_eq_some_iff.mp angle
    rw [Markup.front_of_angle]
    simp [Front.of, markup]
  · obtain ⟨rest, rfl⟩ := startsMustache_iff.mp opens
    rw [Markup.front_of_braces]
    simp [Front.of, markup]

theorem Front.of_text {text : List Char} (filled : text ≠ []) (plain : startsMarkup text = false) :
    Front.of text = .text := by
  obtain ⟨c, rest, rfl⟩ := List.exists_cons_of_ne_nil filled
  simp [Front.of, plain]

theorem Front.of_ne_text {text : List Char} (ended : text = [] ∨ startsMarkup text = true) :
    Front.of text ≠ .text := by
  rcases ended with rfl | markup
  · simp [Front.of]
  · obtain ⟨c, rest, rfl⟩ : ∃ c rest, text = c :: rest := by
      cases text with
      | nil => cases markup
      | cons c rest => exact ⟨c, rest, rfl⟩
    simp only [Front.of, markup, if_true]
    split <;> simp

theorem Front.of_eq_brace {text : List Char} (brace : Front.of text = .brace) :
    startsMustache text = true := by
  cases text with
  | nil => cases brace
  | cons c rest =>
    simp only [Front.of] at brace
    split at brace
    · rename_i markup
      split at brace
      · rename_i same
        subst same
        simpa using head?_of_startsMarkup markup
      · cases brace
    · cases brace

/-- The text before markup or the end of the source is as it should be. -/
theorem textIsRead_of_textStretch {text : List Char} (filled : text ≠ [])
    (plain : startsMarkup text = false) :
    TextIsRead (textStretch text) (Front.of (text.drop (textStretch text).length)) := by
  obtain ⟨tail, shape, ended, inside⟩ := stretch_spec startsMarkup text
  rw [← textStretch_eq_stretch] at shape inside
  have left : text.drop (textStretch text).length = tail :=
    List.append_cancel_left ((List.prefix_iff_eq_append.mp ⟨tail, shape.symm⟩).trans shape)
  rw [left]
  refine ⟨?_, ?_, Front.of_ne_text ended, ?_⟩
  · obtain ⟨c, rest, rfl⟩ := List.exists_cons_of_ne_nil filled
    simp [textStretch, plain]
  · rw [textStretch_eq_stretch (textStretch text)]
    apply stretch_eq_self
    intro rest suffix present
    have stopped := inside rest suffix present
    rw [← Bool.not_eq_true] at stopped ⊢
    exact fun markup => stopped (startsMarkup_append markup tail)
  · intro brace last
    obtain ⟨front, split⟩ := List.getLast?_eq_some_iff.mp last
    obtain ⟨others, rfl⟩ := startsMustache_iff.mp (Front.of_eq_brace brace)
    have stopped := inside ['{'] (split ▸ List.suffix_append _ _) (by simp)
    simp [startsMarkup, startsMustache, List.isPrefixOf] at stopped

/-- A comment is ended by the first end of a comment behind its opening; in its short form this has
no dashes, and then the long form ends no earlier either. -/
theorem firstOccurrence_long {value : List Char}
    (found : firstOccurrence ['}', '}'] (value ++ ['}', '}']) = some value.length) :
    firstOccurrence ['-', '-', '}', '}'] (value ++ ['-', '-', '}', '}']) = some value.length := by
  induction value with
  | nil => rfl
  | cons c value ih =>
    rw [List.cons_append, firstOccurrence] at found
    split at found
    · cases found
    · have inner : firstOccurrence ['}', '}'] (value ++ ['}', '}']) = some value.length := by
        simpa using found
      have later : ['-', '-', '}', '}'].isPrefixOf (c :: (value ++ ['-', '-', '}', '}'])) = false := by
        rcases value with _ | ⟨d, _ | ⟨e, _ | ⟨f, rest⟩⟩⟩
        · simp [List.isPrefixOf]
        · simp [List.isPrefixOf]
        · simp [List.isPrefixOf]
        · rw [← Bool.not_eq_true]
          intro early
          obtain ⟨behind, shape⟩ := List.isPrefixOf_iff_prefix.mp early
          simp only [List.cons_append, List.cons.injEq] at shape
          obtain ⟨rfl, rfl, rfl, rfl, -⟩ := shape
          simp [firstOccurrence, List.isPrefixOf] at inner
      rw [List.cons_append, firstOccurrence, later, ih inner]
      rfl

/-- The three forms of comments are written in two. -/
theorem isRead_of_pastTerminator? {cursor after : Cursor} {form : CommentForm} {value : List Char}
    {span : Span} (found : cursor.pastTerminator? form.terminator = some (value, after)) :
    Comment.IsRead ⟨String.ofList value, form.isHtml, span⟩ := by
  simp only [Cursor.pastTerminator?, Option.map_eq_some_iff, Prod.mk.injEq] at found
  obtain ⟨count, first, rfl, -⟩ := found
  have length : (cursor.rest.take count).length = count :=
    List.length_take_of_le (firstOccurrence_le first)
  have again := firstOccurrence_take first []
  rw [List.append_nil] at again
  cases form with
  | html => simpa [Comment.IsRead, Comment.terminator, CommentForm.isHtml, length] using again
  | long => simpa [Comment.IsRead, Comment.terminator, CommentForm.isHtml, length] using again
  | short =>
    have short : firstOccurrence ['}', '}'] (cursor.rest.take count ++ ['}', '}']) =
        some (cursor.rest.take count).length := by
      rw [length]
      exact again
    have long := firstOccurrence_long short
    simpa [Comment.IsRead, Comment.terminator, CommentForm.isHtml, CommentForm.terminator] using long

end LayoutMarkup
