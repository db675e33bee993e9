import LayoutMarkup.Proofs.Layout.Assembly
import LayoutMarkup.Proofs.Layout.Pointwise
import LayoutMarkup.Proofs.Template.RereadNodes

/-! What assembly leaves, read back. If everything that is printed is taken for what it is, each node
comes back at its id, a component with the names of its attributes as keys and with every string read
back by itself. -/

namespace LayoutMarkup

namespace Tree

theorem eachAll_of_heads {leaf : Leaf → Bool} {head head' : Head → Bool} {change : Head → Head}
    (heads : ∀ top, head top = true → head' (change top) = true) :
    ∀ trees : List Tree, eachAll leaf head trees = true →
      eachAll leaf head' (mapHeadsAll change trees) = true
  | [], _ => rfl
  | .leaf content :: trees, met => by
    simp only [eachAll, each, mapHeadsAll, mapHeads, Bool.and_eq_true] at met ⊢
    exact ⟨met.1, eachAll_of_heads heads trees met.2⟩
  | .branch top below :: trees, met => by
    simp only [eachAll, each, mapHeadsAll, mapHeads, Bool.and_eq_true] at met ⊢
    exact ⟨⟨heads top met.1.1, eachAll_of_heads heads below met.1.2⟩,
      eachAll_of_heads heads trees met.2⟩

end Tree

theorem Head.keepsKind_assembled (head : Head) (keeps : head.keepsKind = true) :
    head.assembled.keepsKind = true := by
  cases head with
  | program span => rfl
  | block block => rfl
  | element element =>
    by_cases component : element.isComponent = true
    · simp [assembled, componentRule, component, keepsKind]
    · simpa [assembled, componentRule, component] using keeps

namespace Template

variable {source : String} {template : Template}

/-- Whether the mustaches in the texts of attributes are only names. -/
def OpensNames (template : Template) : Prop :=
  ∀ id element, template.element? id = some element →
    ∀ attr ∈ element.attributes, attr.value.opensNames = true

/-- What a template needs for what assembly leaves of it to be taken for what it is: it can be read as it
is printed, the mustaches in texts of attributes are only names, the attributes of components are named
like keys, and no text with a brace at its end stands before a component. -/
structure IsAssemblable (template : Template) : Prop where
  readable : ∃ text again, template.print = some text ∧ read text = .ok again
  names : template.OpensNames
  keys : ∀ id element, template.element? id = some element → element.isComponent = true →
    ∀ attr ∈ element.attributes, Lexeme.IsKey attr.name.toList
  apart : template.isApart = true

/-- Whether a template is assemblable, asked of its text and its store. -/
def canAssemble (template : Template) : Bool :=
  (template.print.any fun text => (read text).isOk) && template.isApart &&
    template.nodes.all fun node => node.element?.all fun element =>
      (element.attributes.all fun attr => attr.value.opensNames) &&
        (!element.isComponent || element.attributes.all fun attr =>
          decide (Lexeme.IsKey attr.name.toList))

theorem isAssemblable_of_canAssemble (able : template.canAssemble = true) :
    template.IsAssemblable := by
  simp only [canAssemble, Bool.and_eq_true, Option.any_eq_true] at able
  obtain ⟨⟨⟨text, printed, reread⟩, apart⟩, all⟩ := able
  have elements := of_all_elements all
  simp only [Bool.and_eq_true, Bool.or_eq_true, Bool.not_eq_true', List.all_eq_true,
    decide_eq_true_eq] at elements
  refine ⟨?_, fun id element present => (elements id element present).1, ?_, apart⟩
  · cases again : read text with
    | ok other => exact ⟨text, other, printed, again⟩
    | error fault => simp [again, Except.isOk, Except.toBool] at reread
  · intro id element present component
    exact (elements id element present).2.resolve_left (by simp [component])

theorem eachAll_of_opensNames {trees : List Tree} {span : Span}
    (names : (ofTrees trees span).OpensNames) :
    Tree.eachAll (fun _ => true) Head.keepsKind trees = true := by
  have all : (ofTrees trees span).nodes.all (Node.each (fun _ => true) Head.keepsKind) = true := by
    rw [Array.all_eq_true]
    intro id bound
    have found : (ofTrees trees span).get? id = some (ofTrees trees span).nodes[id] :=
      Array.getElem?_eq_getElem bound
    generalize (ofTrees trees span).nodes[id] = node at found
    match node with
    | .leaf content => rfl
    | .branch (.program _) _ => rfl
    | .branch (.block _) _ => rfl
    | .branch (.element element) children =>
      have present := element?_eq_some_iff.mpr ⟨children, found⟩
      exact List.all_eq_true.mpr fun attr member => names id element present attr member
  rw [all_each_ofTrees, Bool.and_eq_true] at all
  exact all.2

/-- What assembly leaves of a template can be read as it is printed, and each node comes back at its id. -/
theorem get?_of_reread_component (found : read source = .ok template) (able : template.IsAssemblable) :
    ∃ rewritten text again, Pass.component.run template = (rewritten, none) ∧
      rewritten.print = some text ∧ read text = .ok again ∧
      (∀ id, rewritten.get? id = (template.get? id).map Node.assembled) ∧
      ∀ id, (again.get? id).map Node.withoutSpans = (rewritten.get? id).map Node.reread := by
  have contained := isSelfContained_of_opensNames found able.names
  obtain ⟨before, earlier, printed, reread⟩ := able.readable
  obtain ⟨trees, cursor, finished, rfl⟩ := exists_trees_of_read found
  generalize (⟨.start, cursor.position⟩ : Span) = span at *
  have shown := shownAll_ofTrees trees span
  have legible := Tree.allLegible_of_shownAll contained trees .stop _ shown
    (Tree.allRead_of_read finished)
  have assembled := Tree.allLegible_assembledAll able.keys trees .stop false _ shown legible
  have clear := (read_print_ofTrees_iff legible printed).mp ⟨earlier, reread⟩
  have apart := (allClear_assembledAll_of_clear span clear).trans able.apart
  have printed' := print_ofTrees (Tree.assembledAll trees) span
  obtain ⟨again, reread'⟩ := (read_print_ofTrees_iff assembled printed').mpr apart
  have keeps := Tree.eachAll_of_heads Head.keepsKind_assembled trees (eachAll_of_opensNames able.names)
  have done := component_ofTrees trees span
  refine ⟨_, _, again, done, printed', reread', fun id => ?_,
    get?_of_read_print assembled keeps printed' reread'⟩
  rw [get?_of_transform (isTree_ofTrees trees span) done]
  congr 1
  funext node
  exact node.ruled_component

end Template

end LayoutMarkup
