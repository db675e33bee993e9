import LayoutMarkup.Proofs.Template.Subtrees

/-! The canonical form of templates. Reading builds no other template than one in which no text could
be read as markup or joined to its neighbour, every call has names that are read as such, and nothing
stands where the source has no place for it. The form is stated of the stored nodes; what holds of the
trees of a source carries over to them node by node and sibling by sibling. -/

namespace LayoutMarkup

/-- A text in which no markup begins. -/
structure IsPlainText (text : List Char) : Prop where
  filled : text ≠ []
  noMustache : ¬ ['{', '{'] <:+: text
  noClosingTag : ¬ ['<', '/'] <:+: text
  noComment : ¬ ['<', '!', '-', '-'] <:+: text
  noStartTag : ∀ c, Unicode.isAlphabetic c = true → ¬ ['<', c] <:+: text

/-- Parts that are a value of their own: with a mustache among them, and no literal text that is empty,
opens a mustache or adjoins another. -/
structure PartsAreCanonical (parts : List Part) : Prop where
  mustache : ∃ call, Part.mustache call ∈ parts
  calls : ∀ call, Part.mustache call ∈ parts → call.meets .asRead = true
  filled : ∀ literal, Part.text literal ∈ parts → literal.chars.toList ≠ []
  plain : ∀ literal, Part.text literal ∈ parts → ¬ ['{', '{'] <:+: literal.chars.toList
  apart : ∀ first second, ¬ [Part.text first, Part.text second] <:+: parts

def AttributeValue.IsCanonical : AttributeValue → Prop
  | .text _ => True
  | .mustache call => call.meets .asRead = true
  | .concat parts _ => PartsAreCanonical parts

structure Attribute.IsCanonical (attr : Attribute) : Prop where
  filled : attr.name.toList ≠ []
  joined : ∀ c ∈ attr.name.toList, isAttributeNameChar c = true
  value : attr.value.IsCanonical

structure Element.IsCanonical (element : Element) : Prop where
  filled : element.tag.toList ≠ []
  joined : ∀ c ∈ element.tag.toList, isTagChar c = true
  attributes : ∀ attr ∈ element.attributes, attr.IsCanonical

namespace Node

/-- What holds of a node by itself. A comment does not hold the sign that would end it. -/
def IsCanonical : Node → Prop
  | .leaf (.text literal) => IsPlainText literal.chars.toList
  | .leaf (.mustache call) => call.meets .asRead = true
  | .leaf (.comment remark) => ¬ remark.terminator <:+: remark.value.toList
  | .branch (.program _) _ => True
  | .branch (.element el) ids => el.IsCanonical ∧ (el.selfClosing ∨ isVoidTag el.tag → ids = [])
  | .branch (.block inner) _ => inner.call.meets .asRead = true

/-- With what the written form of a node begins. -/
def front : Node → Front
  | .leaf content => content.front
  | .branch head _ => head.front

/-- Whether a node is literal text that ends with a brace. -/
def EndsWithBrace : Node → Prop
  | .leaf (.text literal) => literal.chars.toList.getLast? = some '{'
  | _ => False

end Node

/-- What holds of every node of a template, of neighbours, and of the end of a block. -/
structure Template.IsCanonical (template : Template) : Prop where
  nodes : ∀ id node, template.get? id = some node → node.IsCanonical
  apart : ∀ parent first second one other, [first, second] <:+: template.children parent →
    template.get? first = some one → template.get? second = some other →
      ¬ (one.front = .text ∧ other.front = .text)
  unbraced : ∀ parent first second one other, [first, second] <:+: template.children parent →
    template.get? first = some one → template.get? second = some other →
      one.EndsWithBrace → other.front ≠ .brace
  closed : ∀ parent block before last node,
    template.get? parent = some (.branch (.block block) (before ++ [last])) →
      template.get? last = some node → ¬ node.EndsWithBrace

section Texts

variable {text pattern : List Char}

theorem not_infix_of_plain (plain : textStretch text = text) (filled : pattern ≠ [])
    (opens : startsMarkup pattern = true) : ¬ pattern <:+: text := by
  intro within
  obtain ⟨rest, ⟨tail, rfl⟩, suffix⟩ := List.infix_iff_prefix_suffix.mp within
  rw [textStretch_eq_stretch] at plain
  have stopped := stop_of_stretch_eq_self plain suffix (by simp [filled])
  rw [startsMarkup_append opens tail] at stopped
  cases stopped

theorem TextIsRead.isPlainText {next : Front} (read : TextIsRead text next) : IsPlainText text where
  filled := read.filled
  noMustache := not_infix_of_plain read.plain (by simp) (by decide)
  noClosingTag := not_infix_of_plain read.plain (by simp) (by decide)
  noComment := not_infix_of_plain read.plain (by simp) (by decide)
  noStartTag c letter :=
    have opens : startsMarkup ['<', c] = true := startsMarkup_iff.mpr (.inr (.inr (.inl ⟨c, [], rfl, letter⟩)))
    not_infix_of_plain read.plain (by simp) opens

theorem not_infix_of_holdsMustache (plain : holdsMustache text = false) : ¬ ['{', '{'] <:+: text := by
  intro within
  obtain ⟨rest, ⟨tail, rfl⟩, suffix⟩ := List.infix_iff_prefix_suffix.mp within
  have opens : startsMustache (['{', '{'] ++ tail) = true := startsMustache_iff.mpr ⟨tail, rfl⟩
  rw [startsMustache_of_suffix plain suffix] at opens
  cases opens

/-- A text before the first occurrence of a pattern does not hold it. -/
theorem not_infix_of_firstOccurrence (filled : pattern ≠ [])
    (found : firstOccurrence pattern (text ++ pattern) = some text.length) : ¬ pattern <:+: text := by
  rintro ⟨before, behind, rfl⟩
  obtain ⟨count, early, bound⟩ := firstOccurrence_le_of_prefix
    (List.prefix_append pattern (behind ++ pattern)) before
  rw [List.append_assoc, List.append_assoc, early] at found
  have long := List.length_pos_iff.mpr filled
  simp only [Option.some.injEq, List.length_append] at found
  omega

theorem Comment.IsRead.not_infix {comment : Comment} (read : comment.IsRead) :
    ¬ comment.terminator <:+: comment.value.toList := by
  refine not_infix_of_firstOccurrence ?_ read
  unfold Comment.terminator
  split <;> simp [CommentForm.terminator]

end Texts

namespace PartsAreRead

variable {parts : List Part}

theorem literal {literal : Text} (read : PartsAreRead parts) (member : Part.text literal ∈ parts) :
    literal.chars.toList ≠ [] ∧ holdsMustache literal.chars.toList = false := by
  induction parts with
  | nil => cases member
  | cons part rest ih =>
    rcases List.mem_cons.mp member with rfl | later
    · match rest, read with
      | [], ⟨filled, plain⟩ => exact ⟨filled, plain⟩
      | .mustache _ :: _, ⟨filled, plain, _⟩ =>
        exact ⟨filled, holdsMustache_of_start plain (List.prefix_append _ _)⟩
    · exact ih read.tail later

theorem apart (read : PartsAreRead parts) (first second : Text) :
    ¬ [Part.text first, Part.text second] <:+: parts := by
  induction parts with
  | nil => simp
  | cons part rest ih =>
    rw [List.infix_cons_iff]
    rintro (⟨behind, same⟩ | later)
    · obtain ⟨rfl, rfl⟩ := List.cons.inj same
      exact read
    · exact ih read.tail later

theorem isCanonical {call : Call} (read : PartsAreRead parts) (member : Part.mustache call ∈ parts) :
    PartsAreCanonical parts where
  mustache := ⟨call, member⟩
  calls _ := read.meets
  filled _ member := (read.literal member).1
  plain _ member := not_infix_of_holdsMustache (read.literal member).2
  apart := read.apart

end PartsAreRead

theorem AttributeValue.IsRead.isCanonical : ∀ {value : AttributeValue}, value.IsRead → value.IsCanonical
  | .text _, _ => trivial
  | .mustache _, met => met
  | .concat _ _, ⟨read, _, member⟩ => read.isCanonical member

theorem TagIsRead.isCanonical {element : Element} (read : TagIsRead element.tag element.attributes) :
    element.IsCanonical where
  filled := by
    obtain ⟨c, rest, shape, -⟩ := read.begins
    simp [shape]
  joined := read.joined
  attributes attr member :=
    let legal := read.attributes attr member
    ⟨legal.filled, legal.named, legal.value.isCanonical⟩

namespace Tree

variable {lookup : NodeId → Option Node} {id : NodeId} {node : Node}

/-- The node that shows a tree that was read has the canonical form, whatever comes behind it. -/
theorem isCanonical_of_shownAt {tree : Tree} {next : Front} (read : tree.IsRead next)
    (shown : tree.ShownAt lookup id) (found : lookup id = some node) : node.IsCanonical := by
  cases tree with
  | leaf content =>
    obtain rfl := Option.some.inj (found.symm.trans shown)
    cases content with
    | text literal => exact TextIsRead.isPlainText read
    | mustache call => exact read
    | comment remark => exact Comment.IsRead.not_infix read
  | branch head trees =>
    obtain ⟨ids, same, below⟩ := shown
    obtain rfl := Option.some.inj (found.symm.trans same)
    obtain ⟨legal, lone, -⟩ := read
    cases head with
    | program span => exact legal.elim
    | block inner => exact legal
    | element el =>
      refine ⟨legal.isCanonical, fun whole => ?_⟩
      obtain rfl := lone (by simpa [Head.isLone] using whole)
      exact below

theorem front_of_shownAt {tree : Tree} (shown : tree.ShownAt lookup id) (found : lookup id = some node) :
    node.front = tree.front := by
  cases tree with
  | leaf content =>
    obtain rfl := Option.some.inj (found.symm.trans shown)
    rfl
  | branch head trees =>
    obtain ⟨ids, same, -⟩ := shown
    obtain rfl := Option.some.inj (found.symm.trans same)
    rfl

/-- A node that begins with text shows a text, and what is known of this is known of the node. -/
theorem textIsRead_of_shownAt {tree : Tree} {next : Front} (read : tree.IsRead next)
    (shown : tree.ShownAt lookup id) (found : lookup id = some node) (begins : node.front = .text) :
    ∃ literal, node = .leaf (.text literal) ∧ TextIsRead literal.chars.toList next := by
  cases tree with
  | leaf content =>
    obtain rfl := Option.some.inj (found.symm.trans shown)
    cases content with
    | text literal => exact ⟨literal, rfl, read⟩
    | mustache call => cases begins
    | comment remark =>
      simp only [Node.front, Leaf.front] at begins
      split at begins <;> cases begins
  | branch head trees =>
    obtain ⟨ids, same, -⟩ := shown
    obtain rfl := Option.some.inj (found.symm.trans same)
    cases head <;> cases begins

theorem not_endsWithBrace_of_shownAt {tree : Tree} (read : tree.IsRead .brace)
    (shown : tree.ShownAt lookup id) (found : lookup id = some node) : ¬ node.EndsWithBrace := by
  intro braced
  have begins : node.front = .text := by
    match node, braced with
    | .leaf (.text _), _ => rfl
  obtain ⟨literal, rfl, text⟩ := textIsRead_of_shownAt read shown found begins
  exact text.unbraced rfl braced

/-- Each of some trees that were read stands before what comes next in them. -/
theorem exists_shownAt_of_append {trees : List Tree} {next : Front} {before behind : List NodeId}
    (read : AllRead trees next) (shown : ShownAll lookup trees (before ++ id :: behind)) :
    ∃ (tree : Tree) (others : List Tree), tree.ShownAt lookup id ∧ ShownAll lookup others behind ∧
      tree.IsRead (frontAll others next) := by
  induction before generalizing trees with
  | nil =>
    cases trees with
    | nil => cases shown
    | cons tree trees =>
      obtain ⟨first, others, same, top, below⟩ := shown
      obtain ⟨rfl, rfl⟩ := List.cons.inj same
      exact ⟨tree, trees, top, below, read.1⟩
  | cons earlier before ih =>
    cases trees with
    | nil => cases shown
    | cons tree trees =>
      obtain ⟨first, others, same, -, below⟩ := shown
      obtain ⟨rfl, rfl⟩ := List.cons.inj same
      exact ih read.2 below

/-- Of two neighbours the first stands before what the second begins with. -/
theorem exists_isRead_of_neighbours {trees : List Tree} {next : Front} {ids : List NodeId}
    {first second : NodeId} {other : Node} (read : AllRead trees next)
    (shown : ShownAll lookup trees ids) (adjoin : [first, second] <:+: ids)
    (found : lookup second = some other) :
    ∃ tree : Tree, tree.ShownAt lookup first ∧ tree.IsRead other.front := by
  obtain ⟨before, behind, rfl⟩ := adjoin
  rw [List.append_assoc] at shown
  obtain ⟨tree, others, top, below, own⟩ := exists_shownAt_of_append read shown
  cases others with
  | nil => cases below
  | cons follower others =>
    obtain ⟨one, rest, same, top', -⟩ := below
    obtain ⟨rfl, -⟩ := List.cons.inj same
    rw [front_of_shownAt top' found]
    exact ⟨tree, top, own⟩

end Tree

namespace Template

section OfTrees

variable {trees : List Tree} {span : Span} {id : NodeId}

/-- The children of every branch show trees that were read before what ends the branch. -/
theorem exists_allRead_of_get? {head : Head} {ids : List NodeId} (read : Tree.AllRead trees .stop)
    (found : (ofTrees trees span).get? id = some (.branch head ids)) :
    ∃ below, Tree.AllRead below head.front ∧ Tree.ShownAll (ofTrees trees span).get? below ids := by
  by_cases top : id = root
  · subst top
    cases found.symm.trans (get?_root_ofTrees trees span)
    exact ⟨trees, read, shownAll_ofTrees trees span⟩
  · obtain ⟨tree, next, shown, own⟩ := exists_isRead_of_get? read found top
    cases tree with
    | leaf content => cases found.symm.trans shown
    | branch head below =>
      obtain ⟨ids, same, inner⟩ := shown
      cases found.symm.trans same
      exact ⟨below, own.2.2, inner⟩

/-- Of two neighbours the first was read before what the second begins with. -/
theorem exists_isRead_of_children {parent first second : NodeId} {other : Node}
    (read : Tree.AllRead trees .stop)
    (adjoin : [first, second] <:+: (ofTrees trees span).children parent)
    (found : (ofTrees trees span).get? second = some other) :
    ∃ tree : Tree, tree.ShownAt (ofTrees trees span).get? first ∧ tree.IsRead other.front := by
  cases above : (ofTrees trees span).get? parent with
  | none => simp [children, above] at adjoin
  | some node =>
    rw [children_of_get? above] at adjoin
    cases node with
    | leaf content => simp [Node.children] at adjoin
    | branch head ids =>
      obtain ⟨below, own, shown⟩ := exists_allRead_of_get? read above
      exact Tree.exists_isRead_of_neighbours own shown adjoin found

theorem isCanonical_of_allRead (read : Tree.AllRead trees .stop) : (ofTrees trees span).IsCanonical where
  nodes id node found := by
    by_cases top : id = root
    · subst top
      cases found.symm.trans (get?_root_ofTrees trees span)
      exact trivial
    · obtain ⟨tree, next, shown, own⟩ := exists_isRead_of_get? read found top
      exact Tree.isCanonical_of_shownAt own shown found
  apart parent first second one other adjoin found behind := by
    rintro ⟨text, follower⟩
    obtain ⟨tree, shown, own⟩ := exists_isRead_of_children read adjoin behind
    obtain ⟨literal, -, maximal⟩ := Tree.textIsRead_of_shownAt own shown found text
    exact maximal.maximal follower
  unbraced parent first second one other adjoin found behind braced follower := by
    obtain ⟨tree, shown, own⟩ := exists_isRead_of_children read adjoin behind
    rw [follower] at own
    exact Tree.not_endsWithBrace_of_shownAt own shown found braced
  closed parent block before last node above found := by
    obtain ⟨below, own, shown⟩ := exists_allRead_of_get? read above
    obtain ⟨tree, others, top, ended, last⟩ := Tree.exists_shownAt_of_append own shown
    cases others with
    | nil => exact Tree.not_endsWithBrace_of_shownAt last top found
    | cons follower others =>
      obtain ⟨one, rest, same, -⟩ := ended
      cases same

end OfTrees

/-- Every template that is read has the canonical form. -/
theorem isCanonical_of_read {source : String} {template : Template}
    (found : read source = .ok template) : template.IsCanonical := by
  obtain ⟨trees, cursor, finished, rfl⟩ := exists_trees_of_read found
  exact isCanonical_of_allRead (Tree.allRead_of_read finished)

/-- A lone brace before a tag, a value with a mustache in it, and a block that ends behind text. -/
theorem isCanonical_of_lone_brace :
    let source := "a\x7b<br class=\"x\x7b\x7by\x7d\x7d\">\x7b\x7b#if (f g k=1)\x7d\x7d< b\x7b\x7b/if\x7d\x7d"
    ∃ template, read source = .ok template ∧ template.IsCanonical ∧
      (template.get? root).map Node.children = some [1, 2, 4] ∧
      (template.get? 2).map Node.front = some .angle ∧
      (template.get? 3).map Node.front = some .text := by
  intro source
  have facts : (read source).toOption.any (fun template =>
      (template.get? root).map Node.children = some [1, 2, 4] &&
        (template.get? 2).map Node.front = some .angle &&
        (template.get? 3).map Node.front = some .text) = true := by
    decide +kernel
  obtain ⟨template, found, checked⟩ := exists_of_any facts
  simp only [Bool.and_eq_true, decide_eq_true_eq] at checked
  obtain ⟨⟨children, tag⟩, text⟩ := checked
  exact ⟨template, found, isCanonical_of_read found, children, tag, text⟩

end Template

end LayoutMarkup
