import LayoutMarkup.Proofs.Template.OtherNodes
import LayoutMarkup.Proofs.Template.Walks

/-! Trees with other heads. A transformation by a rule makes of a template made of trees the template
made of the trees with the heads that the rule gives. -/

namespace LayoutMarkup

variable {change : Head → Head}

namespace Tree

mutual

/-- A tree with every head changed. -/
def mapHeads (change : Head → Head) : Tree → Tree
  | .leaf content => .leaf content
  | .branch head trees => .branch (change head) (mapHeadsAll change trees)

def mapHeadsAll (change : Head → Head) : List Tree → List Tree
  | [] => []
  | tree :: trees => tree.mapHeads change :: mapHeadsAll change trees

end

mutual

theorem mapHeads_eq_mapContents : ∀ tree : Tree, tree.mapHeads change = tree.mapContents id change
  | .leaf _ => rfl
  | .branch _ trees => by rw [mapHeads, mapContents, mapHeadsAll_eq_mapContentsAll trees]

theorem mapHeadsAll_eq_mapContentsAll : ∀ trees : List Tree,
    mapHeadsAll change trees = mapContentsAll id change trees
  | [] => rfl
  | tree :: trees => by
    rw [mapHeadsAll, mapContentsAll, mapHeads_eq_mapContents tree, mapHeadsAll_eq_mapContentsAll trees]

end

end Tree

theorem Node.mapHead_eq_mapContents : Node.mapHead change = Node.mapContents id change := by
  funext node
  cases node <;> rfl

namespace Template

variable {ε : Type} {rule : Head.Rule ε} {after : Template}

/-- A transformation by a rule that keeps programs leaves trees with the heads that the rule gives. -/
theorem transform_ofTrees {span : Span} (trees : List Tree)
    (same : (rule (.program span)).1 = .program span)
    (done : (ofTrees trees span).transform rule = (after, none)) :
    after = ofTrees (Tree.mapHeadsAll (fun head => (rule head).1) trees) span := by
  apply ext_get?
  intro id
  rw [get?_of_transform (isTree_ofTrees trees span) done, get?, get?,
    Tree.mapHeadsAll_eq_mapContentsAll, nodes_ofTrees_mapContents trees same,
    ← Node.mapHead_eq_mapContents, Array.getElem?_map]
  rfl

end Template

end LayoutMarkup
