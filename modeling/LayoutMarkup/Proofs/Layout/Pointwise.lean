import LayoutMarkup.Proofs.Layout.Passes
import LayoutMarkup.Proofs.Template.Fusion
import LayoutMarkup.Proofs.Template.Walks

/-! Builds node by node. What a build makes of a node depends on the node and the settings alone, so
that its two passes could as well be one walk that does both at each node. A build that fails has not
come to its second pass, and its first one leaves the outlines of all nodes. -/

namespace LayoutMarkup

namespace Node

/-- What can be seen of a node without its attributes: its kind, its tag, its children and its span. -/
def outline (node : Node) : String × Option String × List NodeId × Span :=
  (node.kind, node.element?.map Element.tag, node.children, node.span)

/-- The component that is made of an element that calls for one; any other node as it is. -/
def assembled : Node → Node
  | .branch (.element element) children =>
    .branch (if element.isComponent then .block element.toBlock else .element element) children
  | node => node

theorem ruled_component (node : Node) : node.ruled componentRule = node.assembled := by
  cases node with
  | leaf content => rfl
  | branch head children => cases head <;> rfl

end Node

namespace Settings

variable {settings : Settings} {template after : Template} {error : LayoutError}

/-- The node with its layout attributes converted if it is an element with a tag that is converted;
any other node as it is. -/
def converted (settings : Settings) : Node → Node
  | .branch (.element element) children =>
    let result := if settings.converts element.tag then (settings.convert element).1 else element
    .branch (.element result) children
  | node => node

theorem ruled_conversion (node : Node) :
    node.ruled settings.conversionRule = settings.converted node := by
  cases node with
  | leaf content => rfl
  | branch head children =>
    cases head with
    | program span => rfl
    | block block => rfl
    | element element =>
      simp only [Node.ruled, Node.mapHead, conversionRule, converted]
      split <;> rfl

theorem outline_converted (node : Node) : (settings.converted node).outline = node.outline := by
  cases node with
  | leaf content => rfl
  | branch head children =>
    cases head with
    | program span => rfl
    | block block => rfl
    | element element =>
      rw [converted]
      split
      · rw [convert_eq_with_attributes]
        rfl
      · rfl

/-- A build fails within its conversion. -/
theorem conversion_of_build_failed (failed : settings.build template = (after, some error)) :
    settings.conversion.run template = (after, some error) := by
  cases accepted : (settings.conversion.run template).2 with
  | none =>
    rw [build_of_accepted accepted] at failed
    cases failed
  | some own =>
    have converted : settings.conversion.run template = ((settings.conversion.run template).1, some own) :=
      Prod.ext rfl accepted
    simp only [build, passes, Pass.runAll] at failed
    rw [converted] at failed ⊢
    exact failed

/-- A build succeeds when its passes do, one after the other. -/
theorem build_eq_iff :
    settings.build template = (after, none) ↔
      ∃ middle, settings.conversion.run template = (middle, none) ∧
        Pass.component.run middle = (after, none) := by
  constructor
  · intro done
    have accepted := accepted_of_build (congrArg Prod.snd done)
    rw [build_of_accepted accepted] at done
    obtain ⟨rfl, -⟩ := Prod.mk.inj done
    exact ⟨_, Prod.ext rfl accepted, Prod.ext rfl (component_accepted _ _)⟩
  · intro ⟨middle, converted, made⟩
    rw [build_of_accepted (congrArg Prod.snd converted), converted, made]

/-- A pass, failing or not, leaves a tree of the same size. -/
theorem isTree_of_run {pass : Pass} {result : Option LayoutError} (tree : template.IsTree)
    (run : pass.run template = (after, result)) : after.IsTree ∧ after.size = template.size := by
  have left := Template.isTree_transform tree pass.rule
  have size := Template.size_applyEach pass.rule template template.descendants
  rw [show template.transform pass.rule = (after, result) from run] at left
  rw [show Template.applyEach pass.rule template.descendants template = (after, result) from run] at size
  exact ⟨left, size⟩

section

variable (tree : template.IsTree)

include tree

/-- A successful build makes of each node what conversion and assembly make of it on its own. -/
theorem get?_of_build (done : settings.build template = (after, none)) (id : NodeId) :
    after.get? id = (template.get? id).map fun node => (settings.converted node).assembled := by
  obtain ⟨middle, converted, made⟩ := build_eq_iff.mp done
  rw [Template.get?_of_transform (isTree_of_run tree converted).1 made id,
    Template.get?_of_transform tree converted id, Option.map_map]
  congr 1
  funext node
  exact (Node.ruled_component _).trans (congrArg Node.assembled (ruled_conversion node))

/-- The passes of a build are walks through the template. -/
theorem build_eq_iff_walks :
    settings.build template = (after, none) ↔
      ∃ middle,
        template.walk (Template.ruleVisitor settings.conversionRule) () template.size =
          some ((middle, ()), none) ∧
        middle.walk (Template.ruleVisitor componentRule) () template.size =
          some ((after, ()), none) := by
  rw [build_eq_iff]
  apply exists_congr
  intro middle
  rw [Template.walk_eq_iff tree (Nat.le_refl _)]
  apply and_congr_right
  intro (converted : settings.conversion.run template = (middle, none))
  obtain ⟨left, size⟩ := isTree_of_run tree converted
  rw [Template.walk_eq_iff left (Nat.le_of_eq size)]
  rfl

/-- Instead of the passes, one walk can convert each node and make a component of it, before it goes on
to the children. -/
theorem build_eq_iff_fused :
    settings.build template = (after, none) ↔
      template.walk (Template.ruleVisitor (settings.conversionRule.andThen componentRule)) ()
        template.size = some ((after, ()), none) := by
  rw [build_eq_iff, Template.walk_eq_iff tree (Nat.le_refl _), Template.transform,
    Template.applyEach_andThen_iff (Template.nodup_descendants_of_isTree tree)]
  apply exists_congr
  intro middle
  apply and_congr_right
  intro (converted : settings.conversion.run template = (middle, none))
  have order := settings.conversion.descendants_run template
  rw [converted] at order
  rw [← order]
  rfl

end

/-- A conversion, failing or not, keeps all outlines. -/
theorem outline_of_conversion {result : Option LayoutError}
    (run : settings.conversion.run template = (after, result)) (id : NodeId) :
    (after.get? id).map Node.outline = (template.get? id).map Node.outline := by
  have kept : ∀ node : Node, (node.ruled settings.conversion.rule).outline = node.outline :=
    fun node => (congrArg Node.outline (ruled_conversion node)).trans (outline_converted node)
  have same : ((settings.conversion.run template).1.get? id).map Node.outline =
      (template.get? id).map Node.outline := Template.map_get?_applyEach kept _ id
  rwa [run] at same

/-- A build of what was read makes of each node what conversion and assembly make of it on its own, if
it succeeds; its two walks through the template are as good as a single one. If it fails, it has left
all outlines. -/
theorem build_node_by_node {source : String} (read : Template.read source = .ok template) :
    (∀ after, settings.build template = (after, none) →
      ∀ id, after.get? id = (template.get? id).map fun node => (settings.converted node).assembled) ∧
    (∀ after, settings.build template = (after, none) ↔
      ∃ middle,
        template.walk (Template.ruleVisitor settings.conversionRule) () template.size =
          some ((middle, ()), none) ∧
        middle.walk (Template.ruleVisitor componentRule) () template.size =
          some ((after, ()), none)) ∧
    (∀ after, settings.build template = (after, none) ↔
      template.walk (Template.ruleVisitor (settings.conversionRule.andThen componentRule)) ()
        template.size = some ((after, ()), none)) ∧
    ∀ after error, settings.build template = (after, some error) →
      ∀ id, (after.get? id).map Node.outline = (template.get? id).map Node.outline := by
  have tree := Template.isTree_of_read read
  refine ⟨?_, ?_, ?_, ?_⟩
  · intro after done
    exact get?_of_build tree done
  · intro after
    exact build_eq_iff_walks tree
  · intro after
    exact build_eq_iff_fused tree
  · intro after error failed
    exact outline_of_conversion (conversion_of_build_failed failed)

/-- A container with a box in it: both get their classes, and the container becomes a block. -/
theorem build_node_by_node_of_container :
    let settings := ofProject ((Project.empty.withColumns 12).withBreakpoint ⟨"sm", none, none⟩)
    ∃ template after,
      Template.read "<container sm='6'><box wrap></box></container>" = .ok template ∧
      settings.build template = (after, none) ∧
      (∀ id, after.get? id =
        (template.get? id).map fun node => (settings.converted node).assembled) ∧
      template.walk (Template.ruleVisitor (settings.conversionRule.andThen componentRule)) ()
        template.size = some ((after, ()), none) ∧
      (after.get? 2).map Node.kind = some "BlockStatement" := by
  intro settings
  have facts : (match Template.read "<container sm='6'><box wrap></box></container>" with
      | .ok template =>
        let outcome := settings.build template
        outcome.2 = none && (outcome.1.get? 2).map Node.kind = some "BlockStatement"
      | .error _ => false) = true := by decide +kernel
  cases read : Template.read "<container sm='6'><box wrap></box></container>" with
  | error fault => simp [read] at facts
  | ok template =>
    simp only [read, Bool.and_eq_true, decide_eq_true_eq] at facts
    obtain ⟨pointwise, -, fused, -⟩ := @build_node_by_node settings template _ read
    have done : settings.build template = ((settings.build template).1, none) :=
      Prod.ext rfl facts.1
    exact ⟨template, _, rfl, done, pointwise _ done, (fused _).mp done, facts.2⟩

end Settings

end LayoutMarkup
