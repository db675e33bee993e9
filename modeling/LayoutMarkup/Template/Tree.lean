import LayoutMarkup.Template.Basic

/-! Templates as trees. Reading yields a tree; storing it gives every node its id, children before
their parents. -/

namespace LayoutMarkup

inductive Tree where
  | leaf (leaf : Leaf)
  | branch (head : Head) (children : List Tree)

namespace Tree

mutual

/-- Add the nodes of a tree to a store; the tree's own node comes last. -/
def store (nodes : Array Node) : Tree → Array Node × NodeId
  | .leaf content => (nodes.push (.leaf content), nodes.size)
  | .branch head trees =>
    let stored := storeAll nodes trees
    (stored.1.push (.branch head stored.2), stored.1.size)

/-- Add the nodes of several trees, one tree after the other. -/
def storeAll (nodes : Array Node) : List Tree → Array Node × List NodeId
  | [] => (nodes, [])
  | tree :: trees =>
    let first := store nodes tree
    let others := storeAll first.1 trees
    (others.1, first.2 :: others.2)

end

mutual

theorem size_le_store (nodes : Array Node) :
    ∀ tree : Tree, nodes.size ≤ (store nodes tree).1.size
  | .leaf _ => by simp [store]
  | .branch _ trees => by
    have grown := size_le_storeAll nodes trees
    simp only [store, Array.size_push]
    omega

theorem size_le_storeAll (nodes : Array Node) :
    ∀ trees : List Tree, nodes.size ≤ (storeAll nodes trees).1.size
  | [] => by simp [storeAll]
  | tree :: trees =>
    Nat.le_trans (size_le_store nodes tree) (size_le_storeAll (store nodes tree).1 trees)

end

end Tree

/-- The template whose root holds the given trees. -/
def Template.ofTrees (trees : List Tree) (span : Span) : Template :=
  let start := Template.empty span
  let stored := Tree.storeAll start.nodes trees
  Template.set ⟨stored.1, Nat.lt_of_lt_of_le start.root_lt (Tree.size_le_storeAll _ trees)⟩
    Template.root (.branch (.program span) stored.2)

end LayoutMarkup
