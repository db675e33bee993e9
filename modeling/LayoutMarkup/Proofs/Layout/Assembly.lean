import LayoutMarkup.Proofs.Layout.Apart
import LayoutMarkup.Proofs.Layout.Passes
import LayoutMarkup.Proofs.Template.Balance
import LayoutMarkup.Proofs.Template.Subtrees

/-! Templates with components, read back. Where an element becomes a component, angle brackets become
braces. What is printed can be read again unless a text that ends with a brace stands right before a
component or at its end, and what is read then has the same kinds of nodes. -/

namespace LayoutMarkup

/-! ### Components as legible blocks -/

theorem Expression.meets_withSpan {value : Expression} (span : Span)
    (met : value.meets .legible = true) : (value.withSpan span).meets .legible = true := by
  cases value with
  | call inner =>
    obtain ⟨path, params, hash, old⟩ := inner
    exact met
  | _ => exact met

theorem partsMeet_of_partsAreRead : ∀ parts : List Part, PartsAreRead parts →
    partsMeet .legible parts = true
  | [], _ => rfl
  | .text _ :: rest, read => partsMeet_of_partsAreRead rest read.tail
  | .mustache call :: rest, read => by
    have legible := Call.meets_of_implies Demands.asRead_implies_legible call read.mustache
    rw [partsMeet, legible, partsMeet_of_partsAreRead rest read.tail]
    rfl

/-- A value that was read is a legible argument. -/
theorem AttributeValue.meets_toExpression {value : AttributeValue} (read : value.IsRead) :
    value.toExpression.meets .legible = true := by
  cases value with
  | text literal => rfl
  | mustache call =>
    have legible := Call.meets_of_implies Demands.asRead_implies_legible call read
    rw [toExpression]
    split
    · simpa [Expression.meets, Demands.legible] using Call.Reading.isName_of_meets legible
    · simpa [Expression.meets, Demands.legible] using legible
  | concat parts span =>
    simpa [toExpression, Expression.meets, Demands.legible] using partsMeet_of_partsAreRead parts read.1

theorem pairsMeet_toPair (line : Nat) : ∀ attrs : List Attribute,
    (∀ attr ∈ attrs, attr.IsRead) → (∀ attr ∈ attrs, Lexeme.IsKey attr.name.toList) →
      pairsMeet .legible (attrs.map (Attribute.toPair · line)) = true
  | [], _, _ => rfl
  | attr :: attrs, read, named => by
    have value := Expression.meets_withSpan (attr.value.toExpression.span.shift line)
      (AttributeValue.meets_toExpression (read attr List.mem_cons_self).value)
    have key : Demands.legible.key attr.name = true := decide_eq_true (named attr List.mem_cons_self)
    have others := pairsMeet_toPair line attrs
      (fun other member => read other (List.mem_cons_of_mem attr member))
      (fun other member => named other (List.mem_cons_of_mem attr member))
    rw [List.map_cons, Attribute.toPair, pairsMeet, key, value, others]
    rfl

theorem Element.tag_of_isComponent {element : Element} (component : element.isComponent = true) :
    element.tag = "container" ∨ element.tag = "grid" := by
  simp only [isComponent, Bool.or_eq_true, Bool.and_eq_true, decide_eq_true_eq] at component
  exact component.imp id And.left

/-- A component whose attributes are named like keys is a legible block. -/
theorem Element.meets_toBlock {element : Element} (component : element.isComponent = true)
    (read : ∀ attr ∈ element.attributes, attr.IsRead)
    (named : ∀ attr ∈ element.attributes, Lexeme.IsKey attr.name.toList) :
    element.toBlock.call.meets .legible = true := by
  have word : Lexeme.IsName element.componentName.toList := by
    rcases tag_of_isComponent component with same | same <;> rw [componentName, same] <;> decide
  have pairs := pairsMeet_toPair element.span.start.line element.attributes read named
  simp only [toBlock, Block.call, Call.meets, Demands.legible, Demands.namedCall, Path.made, word,
    paramsMeet, decide_true, Bool.true_and, Bool.and_true]
  split
  · rfl
  · rename_i filled
    rw [hashMeets_ofPairs]
    simp only [Option.all_some, Hash.pairs_ofPairs, filled, Bool.not_false, Bool.true_and]
    exact pairs

/-! ### Legible trees with components -/

namespace Tree

variable {template : Template}

theorem isLegible_of_isRead {content : Leaf} {next : Front} (read : content.IsRead next) :
    content.IsLegible next := by
  cases content with
  | text literal => exact ⟨⟨read.filled, read.plain, by decide, by rintro ⟨⟩⟩, read.maximal⟩
  | mustache call => exact Call.meets_of_implies Demands.asRead_implies_legible call read
  | comment remark => exact read

theorem isLegible_orComponent {content : Leaf} {next : Front} (legible : content.IsLegible next)
    (component : Bool) : content.IsLegible (next.orComponent component) := by
  cases content with
  | text literal =>
    refine ⟨legible.1, ?_⟩
    cases component
    · exact legible.2
    · exact Front.noConfusion
  | mustache call => exact legible
  | comment remark => exact legible

mutual

/-- A tree that was read is legible if its attributes have values that are read as one. -/
theorem isLegible_of_shownAt
    (contained : ∀ id element, template.element? id = some element →
      ∀ attr ∈ element.attributes, attr.value.IsSelfContained) :
    ∀ (tree : Tree) (next : Front) (id : NodeId), tree.ShownAt template.get? id →
      tree.IsRead next → tree.IsLegible next
  | .leaf _, _, _, _, read => isLegible_of_isRead read
  | .branch head trees, next, id, ⟨ids, found, below⟩, ⟨legal, lone, inside⟩ => by
    refine ⟨?_, lone, allLegible_of_shownAll contained trees head.front ids below inside⟩
    cases head with
    | program span => exact legal.elim
    | element element =>
      exact ⟨legal, contained id element (Template.element?_eq_some_iff.mpr ⟨ids, found⟩)⟩
    | block block => exact Call.meets_of_implies Demands.asRead_implies_legible block.call legal

theorem allLegible_of_shownAll
    (contained : ∀ id element, template.element? id = some element →
      ∀ attr ∈ element.attributes, attr.value.IsSelfContained) :
    ∀ (trees : List Tree) (next : Front) (ids : List NodeId), ShownAll template.get? trees ids →
      AllRead trees next → AllLegible trees next
  | [], _, _, _, _ => trivial
  | tree :: trees, next, _, ⟨first, others, _, shown, below⟩, ⟨read, rest⟩ =>
    ⟨isLegible_of_shownAt contained tree _ first shown read,
      allLegible_of_shownAll contained trees next others below rest⟩

end

mutual

/-- Assembly leaves legible trees legible if the attributes of components are named like keys. -/
theorem isLegible_assembled
    (named : ∀ id element, template.element? id = some element → element.isComponent = true →
      ∀ attr ∈ element.attributes, Lexeme.IsKey attr.name.toList) :
    ∀ (tree : Tree) (next : Front) (component : Bool) (id : NodeId), tree.ShownAt template.get? id →
      tree.IsLegible next → (tree.mapHeads Head.assembled).IsLegible (next.orComponent component)
  | .leaf _, _, component, _, _, legible => isLegible_orComponent legible component
  | .branch head trees, next, component, id, ⟨ids, found, below⟩, ⟨legal, lone, inside⟩ => by
    have inner := allLegible_assembledAll named trees head.front head.isComponent ids below inside
    rw [← head.front_assembled] at inner
    rw [mapHeads]
    cases head with
    | program span => exact legal.elim
    | block block => exact ⟨legal, nofun, inner⟩
    | element element =>
      have present := Template.element?_eq_some_iff.mpr ⟨ids, found⟩
      by_cases here : element.isComponent = true
      · simp only [Head.assembled, componentRule, here, if_true] at inner ⊢
        exact ⟨element.meets_toBlock here legal.1.attributes (named id element present here),
          nofun, inner⟩
      · simp only [Head.assembled, componentRule, here] at inner ⊢
        refine ⟨legal, fun whole => ?_, inner⟩
        rw [lone whole]
        rfl

theorem allLegible_assembledAll
    (named : ∀ id element, template.element? id = some element → element.isComponent = true →
      ∀ attr ∈ element.attributes, Lexeme.IsKey attr.name.toList) :
    ∀ (trees : List Tree) (next : Front) (closing : Bool) (ids : List NodeId),
      ShownAll template.get? trees ids → AllLegible trees next →
        AllLegible (assembledAll trees) (next.orComponent closing)
  | [], _, _, _, _, _ => trivial
  | tree :: trees, next, closing, _, ⟨first, others, _, shown, below⟩, ⟨legible, rest⟩ => by
    have one := isLegible_assembled named tree (frontAll trees next) (componentNext trees closing)
      first shown legible
    rw [← frontAll_assembledAll trees next closing] at one
    exact ⟨one, allLegible_assembledAll named trees next closing others below rest⟩

end

end Tree

namespace Template

/-- If every literal value of a template that was read opens only names, every value is read as one. -/
theorem isSelfContained_of_opensNames {source : String} {template : Template}
    (found : read source = .ok template)
    (names : ∀ id element, template.element? id = some element →
      ∀ attr ∈ element.attributes, attr.value.opensNames = true) :
    ∀ id element, template.element? id = some element →
      ∀ attr ∈ element.attributes, attr.value.IsSelfContained := by
  intro id element present attr member
  have own := (tagIsRead_of_read found present).attributes attr member
  exact ⟨_, AttributeValue.readsAs_reread own.value (names id element present attr member)⟩

/-- What holds of all elements of a template, asked of the store. -/
theorem of_all_elements {template : Template} {demand : Element → Bool}
    (all : template.nodes.all (fun node => node.element?.all demand) = true) :
    ∀ id element, template.element? id = some element → demand element = true := by
  intro id element present
  obtain ⟨ids, here⟩ := element?_eq_some_iff.mp present
  obtain ⟨bound, same⟩ := Array.getElem?_eq_some_iff.mp here
  have met := Array.all_eq_true.mp all id bound
  rw [same] at met
  exact met

/-- A check of a source for what assembly needs: it can be read as it is printed, its values open only
names, and its components have no other attributes than `responsive`. -/
def canBeAssembled (source : String) : Bool :=
  (read source).toOption.any fun template =>
    (template.print.any fun text => (read text).isOk) &&
      template.nodes.all fun node => node.element?.all fun element =>
        (!element.isComponent || element.attributes.all fun attr => attr.name = "responsive") &&
          element.attributes.all fun attr => attr.value.opensNames

theorem exists_of_canBeAssembled {source : String} (able : canBeAssembled source = true) :
    ∃ template, read source = .ok template ∧
      (∃ text again, template.print = some text ∧ read text = .ok again) ∧
      (∀ id element, template.element? id = some element → element.isComponent = true →
        ∀ attr ∈ element.attributes, attr.name = "responsive") ∧
      ∀ id element, template.element? id = some element →
        ∀ attr ∈ element.attributes, attr.value.IsSelfContained := by
  obtain ⟨template, found, checked⟩ := exists_of_any able
  rw [Bool.and_eq_true, Option.any_eq_true] at checked
  obtain ⟨⟨text, printed, reread⟩, all⟩ := checked
  have elements := of_all_elements all
  simp only [Bool.and_eq_true, Bool.or_eq_true, Bool.not_eq_true', List.all_eq_true,
    decide_eq_true_eq] at elements
  refine ⟨template, found, ?_, ?_, ?_⟩
  · cases again : read text with
    | ok other => exact ⟨text, other, printed, again⟩
    | error fault => simp [again, Except.isOk, Except.toBool] at reread
  · intro id element present component
    exact (elements id element present).1.resolve_left (by simp [component])
  · exact isSelfContained_of_opensNames found fun id element present => (elements id element present).2

/-- Assembly of a template made of trees is that of the trees. -/
theorem component_ofTrees (trees : List Tree) (span : Span) :
    Pass.component.run (ofTrees trees span) = (ofTrees (Tree.assembledAll trees) span, none) := by
  have accepted : (Pass.component.run (ofTrees trees span)).2 = none :=
    Settings.component_accepted _ _
  exact Prod.ext (transform_ofTrees trees rfl (Prod.ext rfl accepted)) accepted

/-- Trees that are clear are so after assembly if their texts are apart from components. -/
theorem allClear_assembledAll_of_clear {trees : List Tree} (span : Span)
    (clear : Tree.allClear trees .stop = true) :
    Tree.allClear (Tree.assembledAll trees) .stop = (ofTrees trees span).isApart := by
  have both := Tree.allClear_assembledAll trees .stop false
  rw [clear, Bool.true_and, ← isApart_ofTrees trees span] at both
  exact both

/-- Of a template that can be read as it is printed, what assembly leaves can be read as it is printed
exactly if no text that ends with a brace stands right before a component or last in one; and then it has
the same kinds of nodes. Components may have no other attributes than `responsive`, and no value may be
read beyond its end. -/
theorem read_print_component_iff {source : String} {template : Template}
    (found : read source = .ok template)
    (readable : ∃ text again, template.print = some text ∧ read text = .ok again)
    (named : ∀ id element, template.element? id = some element → element.isComponent = true →
      ∀ attr ∈ element.attributes, attr.name = "responsive")
    (contained : ∀ id element, template.element? id = some element →
      ∀ attr ∈ element.attributes, attr.value.IsSelfContained) :
    ∃ rewritten text, Pass.component.run template = (rewritten, none) ∧
      rewritten.print = some text ∧
      ((∃ again, read text = .ok again) ↔ template.isApart = true) ∧
      ∀ again, read text = .ok again → again.kinds = rewritten.kinds := by
  obtain ⟨trees, cursor, finished, rfl⟩ := exists_trees_of_read found
  generalize (⟨.start, cursor.position⟩ : Span) = span at *
  have shown := shownAll_ofTrees trees span
  have legible := Tree.allLegible_of_shownAll contained trees .stop _ shown
    (Tree.allRead_of_read finished)
  have keys : ∀ id element, (ofTrees trees span).element? id = some element →
      element.isComponent = true → ∀ attr ∈ element.attributes, Lexeme.IsKey attr.name.toList := by
    intro id element present component attr member
    rw [named id element present component attr member]
    decide
  have assembled := Tree.allLegible_assembledAll keys trees .stop false _ shown legible
  obtain ⟨text, again, printed, reread⟩ := readable
  have clear := (read_print_ofTrees_iff legible printed).mp ⟨again, reread⟩
  have apart := allClear_assembledAll_of_clear span clear
  have done := component_ofTrees trees span
  have printed' := print_ofTrees (Tree.assembledAll trees) span
  refine ⟨_, _, done, printed', ?_, ?_⟩
  · rw [← apart]
    exact read_print_ofTrees_iff assembled printed'
  · intro again' reread'
    exact kinds_of_read_print assembled printed' reread'

/-- A brace before the end tag of an element within a component does no harm, but one before a component
makes what is printed unreadable. -/
theorem read_print_component_of_brace :
    (∃ template rewritten text again,
      read "<grid responsive='{{a}}'>b<i>c\x7b</i></grid>" = .ok template ∧
      Pass.component.run template = (rewritten, none) ∧ rewritten.print = some text ∧
      read text = .ok again ∧ again.kinds = rewritten.kinds) ∧
    ∃ template rewritten text, read "\x7b<container></container>" = .ok template ∧
      (∃ before again, template.print = some before ∧ read before = .ok again) ∧
      Pass.component.run template = (rewritten, none) ∧ rewritten.print = some text ∧
      ¬ ∃ again, read text = .ok again := by
  constructor
  · have able : canBeAssembled "<grid responsive='{{a}}'>b<i>c\x7b</i></grid>" = true := by decide +kernel
    obtain ⟨template, found, readable, named, contained⟩ := exists_of_canBeAssembled able
    obtain ⟨rewritten, text, done, printed, survives, kinds⟩ :=
      read_print_component_iff found readable named contained
    have apart : (read "<grid responsive='{{a}}'>b<i>c\x7b</i></grid>").toOption.any isApart = true := by
      decide +kernel
    rw [found] at apart
    obtain ⟨again, reread⟩ := survives.mpr apart
    exact ⟨template, rewritten, text, again, found, done, printed, reread, kinds again reread⟩
  · have able : canBeAssembled "\x7b<container></container>" = true := by decide +kernel
    obtain ⟨template, found, readable, named, contained⟩ := exists_of_canBeAssembled able
    obtain ⟨rewritten, text, done, printed, survives, -⟩ :=
      read_print_component_iff found readable named contained
    have close : (read "\x7b<container></container>").toOption.any isApart = false := by decide +kernel
    rw [found] at close
    refine ⟨template, rewritten, text, found, readable, done, printed, fun reread => ?_⟩
    exact Bool.noConfusion (close.symm.trans (survives.mp reread))

end Template

end LayoutMarkup
