import LayoutMarkup.Proofs.Layout.Arguments
import LayoutMarkup.Proofs.Layout.Assembly
import LayoutMarkup.Proofs.Source.Places
import LayoutMarkup.Proofs.Template.AttributeSpans

/-! Columns of components. Where a component is made, places on its first line are moved to the right, since
its opening is longer than that of the element it was. But the opening is longer by one column more than
places are moved, so that the first key of a component is written one column behind its place. -/

namespace LayoutMarkup

/-- What is written of an element before its first attribute. -/
def Element.beforeAttributes (element : Element) : List Char := '<' :: (element.tag.toList ++ [' '])

/-- What is written of a block before its first named argument. -/
def Block.beforePairs (block : Block) : List Char :=
  ['{', '{', '#'] ++ block.path.name.toList ++ writeParams block.params ++ [' ']

theorem Block.beforePairs_prefix {block : Block} {hash : Hash} {pair : Pair} {pairs : List Pair}
    (args : block.hash = some hash) (listed : hash.pairs = pair :: pairs) :
    block.beforePairs ++ (pair.key.toList ++ ['=']) <+: block.writeStart := by
  obtain ⟨own, span⟩ := hash
  obtain rfl : own = pair :: pairs := listed
  obtain ⟨key, value, place⟩ := pair
  refine ⟨value.write ++ writePairs pairs ++ ['}', '}'], ?_⟩
  simp [writeStart, beforePairs, args, writeHash, writePairs]

/-! ### From an element to its component -/

namespace Element

variable {element : Element} {attr : Attribute}

/-- The opening of a component ends further right than that of its element, by one column more than places
are moved. -/
theorem after_beforePairs_toBlock (within : '\n' ∉ element.tag.toList) (position : Position) :
    position.after element.toBlock.beforePairs =
      ⟨(position.after element.beforeAttributes).line,
        (position.after element.beforeAttributes).column + componentShift + 1⟩ := by
  have opening : element.toBlock.beforePairs =
      ['{', '{', '#', 'f', 'l', 'e', 'x', 'i', '-'] ++ element.tag.toList ++ [' '] := by
    simp [toBlock, Block.beforePairs, Path.made, componentName, writeParams]
  rw [opening, beforeAttributes, Position.after_within_line _ (by simpa using within),
    Position.after_within_line _ (by simpa using within)]
  simp [componentShift]
  omega

/-- Where the first attribute stands right behind the tag, the opening of the component ends one column
behind the place of the first key. -/
theorem after_beforePairs_eq (within : '\n' ∉ element.tag.toList)
    (place : attr.span.start = element.span.start.after element.beforeAttributes) :
    element.span.start.after element.toBlock.beforePairs =
      ⟨(attr.toPair element.span.start.line).span.start.line,
        (attr.toPair element.span.start.line).span.start.column + 1⟩ := by
  have line : attr.span.start.line = element.span.start.line := by
    rw [place, beforeAttributes, Position.after_within_line _ (by simpa using within)]
  have moved : (attr.toPair element.span.start.line).span.start =
      ⟨attr.span.start.line, attr.span.start.column + componentShift⟩ := if_pos line
  rw [after_beforePairs_toBlock within, moved, place]

end Element

/-! ### The place of the first attribute -/

/-- Blanks that stand where a single space is written are that space. -/
theorem blanks_eq_space {blanks text tail : List Char}
    (blank : ∀ c ∈ blanks, Unicode.isBlank c = true)
    (begins : ∀ c ∈ text.head?, Unicode.isBlank c = false)
    (written : ∀ c ∈ tail.head?, Unicode.isBlank c = false) (same : blanks ++ text = ' ' :: tail) :
    blanks = [' '] := by
  have space : ∀ c ∈ [' '], Unicode.isBlank c = true := by decide
  calc
    blanks = (blanks ++ text).takeWhile Unicode.isBlank := (takeWhile_append_stop blank begins).symm
    _ = ([' '] ++ tail).takeWhile Unicode.isBlank := by rw [same, List.singleton_append]
    _ = [' '] := takeWhile_append_stop space written

/-- In a start tag that is written as it stands in the source, the first attribute stands right behind the
tag and a space. -/
theorem IsStartTag.start_of_first {element : Element} {attr : Attribute} {attrs : List Attribute}
    {start : Position} {opening behind tail : List Char}
    (opens : IsStartTag element.tag element.attributes start opening)
    (listed : element.attributes = attr :: attrs) (read : attr.IsRead)
    (same : opening ++ behind = element.writeStart ++ tail) :
    attr.span.start = start.after element.beforeAttributes := by
  obtain ⟨rest, rfl, covered⟩ := opens
  rw [listed] at covered
  obtain ⟨blanks, first, others, rfl, blank, ⟨span, -, sign, value, rfl, -⟩, -⟩ := covered
  have gap : blanks ++ (attr.name.toList ++ (sign ++ value ++ others ++ behind)) =
      ' ' :: (attr.name.toList ++ ((if attr.value.isAbsent then [] else '=' :: attr.value.write) ++
        attrs.flatMap Attribute.write ++
        (if element.selfClosing then [' ', '/', '>'] else ['>']) ++ tail)) := by
    simpa [Element.writeStart, listed, Attribute.write] using same
  obtain rfl := blanks_eq_space blank (read.head_not_blank _) (read.head_not_blank _) gap
  rw [span, ← Position.after_append]
  rfl

namespace Template

variable {source : String} {template : Template} {id : NodeId} {ids rest : List NodeId}
  {element : Element}

theorem exists_first_branch {trees : List Tree} {span : Span} {head : Head}
    (first : (ofTrees trees span).children root = id :: rest)
    (shown : (ofTrees trees span).get? id = some (.branch head ids)) :
    ∃ below others, trees = .branch head below :: others := by
  have listed := shownAll_of_children first
  match trees with
  | [] => cases listed
  | .leaf content :: others =>
    obtain ⟨_, _, same, here, -⟩ := listed
    cases same
    cases here.symm.trans shown
  | .branch own below :: others =>
    obtain ⟨_, _, same, ⟨_, here, -⟩, -⟩ := listed
    cases same
    cases here.symm.trans shown
    exact ⟨below, others, rfl⟩

/-- In a source that is as its template is written, an element that comes first starts where the source
does, and its first attribute stands right behind its tag and a space. -/
theorem starts_of_first_element (found : read source = .ok template)
    (kept : template.print = some source) (first : template.children root = id :: rest)
    (shown : template.get? id = some (.branch (.element element) ids)) {attr : Attribute}
    {attrs : List Attribute} (listed : element.attributes = attr :: attrs) :
    element.span.start = .start ∧
      attr.span.start = element.span.start.after element.beforeAttributes := by
  have tag := tagIsRead_of_read found (element?_eq_some_iff.mpr ⟨ids, shown⟩)
  have read := tag.attributes attr (listed ▸ List.mem_cons_self)
  obtain ⟨trees, cursor, finished, rfl⟩ := exists_trees_of_read found
  obtain ⟨covered, -⟩ := Tree.coversAll_of_read finished
  obtain ⟨below, others, rfl⟩ := exists_first_branch first shown
  obtain ⟨piece, behind, text, ⟨place, opening, body, closing, rfl, ⟨opens, -⟩, -⟩, -⟩ := covered
  obtain ⟨tail, written⟩ := Tree.writeStart_prefix_element element below
  have same : opening ++ (body ++ closing ++ behind) =
      element.writeStart ++ (tail ++ Tree.writeAll others) := by
    rw [print_ofTrees] at kept
    have whole := congrArg String.toList (Option.some.inj kept)
    rw [String.toList_ofList, text, Tree.writeAll, ← written] at whole
    simpa using whole.symm
  have begins : element.span.start = .start := congrArg Span.start place
  rw [begins]
  exact ⟨rfl, opens.start_of_first listed read same⟩

/-- What is written after assembly begins with the opening of the component that comes first. -/
theorem print_of_first_component (found : read source = .ok template)
    (first : template.children root = id :: rest)
    (shown : template.get? id = some (.branch (.element element) ids))
    (component : element.isComponent = true) :
    ∃ rewritten text, Pass.component.run template = (rewritten, none) ∧
      rewritten.get? id = some (.branch (.block element.toBlock) ids) ∧
      rewritten.print = some text ∧ element.toBlock.writeStart <+: text.toList := by
  obtain ⟨trees, cursor, -, rfl⟩ := exists_trees_of_read found
  generalize (⟨.start, cursor.position⟩ : Span) = span at *
  obtain ⟨below, others, rfl⟩ := exists_first_branch first shown
  have done := component_ofTrees (.branch (.element element) below :: others) span
  refine ⟨_, _, done, ?_, print_ofTrees _ span, ?_⟩
  · have made : Node.ruled componentRule (.branch (.element element) ids) =
        .branch (.block element.toBlock) ids := by
      rw [Node.ruled_component, Node.assembled, if_pos component]
    rw [get?_of_transform (isTree_ofTrees _ span) done, shown]
    exact congrArg some made
  · have head : Head.assembled (.element element) = .block element.toBlock := by
      rw [Head.assembled, componentRule, if_pos component]
    rw [String.toList_ofList, Tree.assembledAll, Tree.mapHeadsAll, Tree.mapHeads, head, Tree.writeAll]
    exact (Tree.writeStart_prefix_block _ _).trans (List.prefix_append _ _)

/-- If a source is as its template is written and begins with an element with attributes that becomes a
component, then the first key of the component is written one column further to the right than its span
says, in all that is written after assembly. -/
theorem first_key_is_one_further (found : read source = .ok template)
    (kept : template.print = some source) (first : template.children root = id :: rest)
    (shown : template.get? id = some (.branch (.element element) ids))
    (component : element.isComponent = true) (filled : element.attributes ≠ []) :
    ∃ rewritten block hash pair pairs text, Pass.component.run template = (rewritten, none) ∧
      rewritten.get? id = some (.branch (.block block) ids) ∧
      block.hash = some hash ∧ hash.pairs = pair :: pairs ∧ rewritten.print = some text ∧
      block.beforePairs ++ (pair.key.toList ++ ['=']) <+: text.toList ∧
      Position.start.after block.beforePairs = ⟨pair.span.start.line, pair.span.start.column + 1⟩ := by
  obtain ⟨attr, attrs, listed⟩ := List.exists_cons_of_ne_nil filled
  obtain ⟨begins, place⟩ := starts_of_first_element found kept first shown listed
  obtain ⟨rewritten, text, done, made, printed, opening⟩ :=
    print_of_first_component found first shown component
  obtain ⟨hash, args⟩ : ∃ hash, element.toBlock.hash = some hash :=
    Option.ne_none_iff_exists'.mp (mt Element.hash_toBlock_eq_none_iff.mp filled)
  have pairs : hash.pairs = attr.toPair element.span.start.line ::
      attrs.map (Attribute.toPair · element.span.start.line) := by
    rw [Element.pairs_toBlock args, listed, List.map_cons]
  have within : '\n' ∉ element.tag.toList := by
    rcases Element.tag_of_isComponent component with same | same <;> rw [same] <;> decide
  refine ⟨rewritten, _, _, _, _, text, done, made, args, pairs, printed,
    (Block.beforePairs_prefix args pairs).trans opening, ?_⟩
  rw [← begins]
  exact Element.after_beforePairs_eq within place

/-- The place of the key is column 18, but it is written at column 19. -/
theorem first_key_is_one_further_of_container :
    let source := "<container a=\"b\" fit>c</container>"
    let written := "\x7b\x7b#flexi-container a=\"b\" fit=\"\"\x7d\x7dc\x7b\x7b/flexi-container\x7d\x7d"
    ∃ template rewritten block hash pair pairs, read source = .ok template ∧
      template.print = some source ∧ Pass.component.run template = (rewritten, none) ∧
      rewritten.print = some written ∧ rewritten.get? 2 = some (.branch (.block block) [1]) ∧
      block.hash = some hash ∧ hash.pairs = pair :: pairs ∧
      block.beforePairs ++ (pair.key.toList ++ ['=']) <+: written.toList ∧
      pair.span.start = ⟨1, 18⟩ ∧ Position.start.after block.beforePairs = ⟨1, 19⟩ := by
  intro source written
  have facts : (read source).toOption.any (fun template =>
      template.print = some source && template.children root = [2] && template.children 2 = [1] &&
      (template.element? 2).any (fun element => element.isComponent && !element.attributes.isEmpty) &&
      (Pass.component.run template).1.print = some written &&
      (((Pass.component.run template).1.get? 2).bind Node.block?).map (fun block =>
          block.hash.map fun hash => hash.pairs.map fun pair => pair.span.start) =
        some (some [⟨1, 18⟩, ⟨1, 24⟩])) = true := by
    decide +kernel
  obtain ⟨template, found, checked⟩ := exists_of_any facts
  simp only [Bool.and_eq_true, decide_eq_true_eq, Option.any_eq_true, Bool.not_eq_true'] at checked
  obtain ⟨⟨⟨⟨⟨kept, first⟩, below⟩, element, present, component, filled⟩, printed⟩, places⟩ := checked
  obtain ⟨ids, shown⟩ := element?_eq_some_iff.mp present
  obtain rfl : ids = [1] := (children_of_get? shown).symm.trans below
  obtain ⟨rewritten, block, hash, pair, pairs, text, done, made, args, listed, text', shows, column⟩ :=
    first_key_is_one_further found kept first shown component (by simpa using filled)
  rw [done] at printed places
  obtain rfl : text = written := Option.some.inj (text'.symm.trans printed)
  simp only [made, Option.bind_some, Node.block?, Option.map_some, args, listed, List.map_cons,
    Option.some.injEq, List.cons.injEq] at places
  rw [places.1] at column
  exact ⟨template, rewritten, block, hash, pair, pairs, found, kept, done, printed, made, args, listed,
    shows, places.1, column⟩

end Template

end LayoutMarkup
