import LayoutMarkup.Proofs.Template.Storage

/-! Trees with other contents. A change of every leaf and of every head keeps the shape of trees, so that
in a template made of trees it is a change of every node, and no node gets another id. -/

namespace LayoutMarkup

variable (leaf : Leaf → Leaf) (head : Head → Head)

/-- A node with other contents over the same children. -/
def Node.mapContents : Node → Node
  | .leaf content => .leaf (leaf content)
  | .branch top children => .branch (head top) children

namespace Tree

mutual

/-- A tree with the contents of every node changed. -/
def mapContents : Tree → Tree
  | .leaf content => .leaf (leaf content)
  | .branch top trees => .branch (head top) (mapContentsAll trees)

def mapContentsAll : List Tree → List Tree
  | [] => []
  | tree :: trees => mapContents tree :: mapContentsAll trees

end

mutual

theorem store_mapContents (nodes : Array Node) :
    ∀ tree : Tree, store (nodes.map (Node.mapContents leaf head)) (tree.mapContents leaf head) =
      ((store nodes tree).1.map (Node.mapContents leaf head), (store nodes tree).2)
  | .leaf content => by simp [store, mapContents, Node.mapContents]
  | .branch top trees => by
    have below := storeAll_mapContents nodes trees
    simp [store, mapContents, below, Node.mapContents]

theorem storeAll_mapContents (nodes : Array Node) :
    ∀ trees : List Tree,
      storeAll (nodes.map (Node.mapContents leaf head)) (mapContentsAll leaf head trees) =
        ((storeAll nodes trees).1.map (Node.mapContents leaf head), (storeAll nodes trees).2)
  | [] => rfl
  | tree :: trees => by
    have first := store_mapContents nodes tree
    have others := storeAll_mapContents (store nodes tree).1 trees
    simp [storeAll, mapContentsAll, first, others]

end

end Tree

variable {leaf head}

/-- In a template made of trees, a change of every leaf and every head is one of every node. -/
theorem Template.nodes_ofTrees_mapContents {span span' : Span} (trees : List Tree)
    (same : head (.program span) = .program span') :
    (ofTrees (Tree.mapContentsAll leaf head trees) span').nodes =
      (ofTrees trees span).nodes.map (Node.mapContents leaf head) := by
  have start : (empty span').nodes = (empty span).nodes.map (Node.mapContents leaf head) := by
    simp [empty, Node.mapContents, same]
  simp only [ofTrees, set, start, Tree.storeAll_mapContents, Array.map_setIfInBounds,
    Node.mapContents, same]

end LayoutMarkup
