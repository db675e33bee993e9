import LayoutMarkup.Proofs.Template.Storage

/-! Demands on every node. Whether all nodes meet them can be asked of the store or of the trees that
were stored in it. -/

namespace LayoutMarkup

variable (leaf : Leaf → Bool) (head : Head → Bool)

/-- Whether a node meets a demand on leaves or one on heads. -/
def Node.each : Node → Bool
  | .leaf content => leaf content
  | .branch top _ => head top

namespace Tree

mutual

/-- Whether every node of a tree meets a demand on leaves or one on heads. -/
def each : Tree → Bool
  | .leaf content => leaf content
  | .branch top trees => head top && eachAll trees

def eachAll : List Tree → Bool
  | [] => true
  | tree :: trees => tree.each && eachAll trees

end

mutual

theorem all_each_store (nodes : Array Node) :
    ∀ tree : Tree, (store nodes tree).1.all (Node.each leaf head) =
      (nodes.all (Node.each leaf head) && tree.each leaf head)
  | .leaf content => by simp [store, each, Node.each]
  | .branch top trees => by
    simp only [store, each, Array.all_push, all_each_storeAll nodes trees, Node.each,
      Bool.and_assoc]
    rw [Bool.and_comm (head top)]

theorem all_each_storeAll (nodes : Array Node) :
    ∀ trees : List Tree, (storeAll nodes trees).1.all (Node.each leaf head) =
      (nodes.all (Node.each leaf head) && eachAll leaf head trees)
  | [] => by simp [storeAll, eachAll]
  | tree :: trees => by
    simp only [storeAll, eachAll, all_each_storeAll _ trees, all_each_store nodes tree,
      Bool.and_assoc]

end

variable {leaf head} {leaf' : Leaf → Bool} {head' : Head → Bool}

mutual

theorem each_mono (leaves : ∀ content, leaf content = true → leaf' content = true)
    (heads : ∀ top, head top = true → head' top = true) :
    ∀ tree : Tree, tree.each leaf head = true → tree.each leaf' head' = true
  | .leaf content, met => leaves content met
  | .branch top trees, met => by
    simp only [each, Bool.and_eq_true] at met ⊢
    exact ⟨heads top met.1, eachAll_mono leaves heads trees met.2⟩

theorem eachAll_mono (leaves : ∀ content, leaf content = true → leaf' content = true)
    (heads : ∀ top, head top = true → head' top = true) :
    ∀ trees : List Tree, eachAll leaf head trees = true → eachAll leaf' head' trees = true
  | [], _ => rfl
  | tree :: trees, met => by
    simp only [eachAll, Bool.and_eq_true] at met ⊢
    exact ⟨each_mono leaves heads tree met.1, eachAll_mono leaves heads trees met.2⟩

end

end Tree

/-- All nodes of a template made of trees are its root and the nodes of the trees. -/
theorem Template.all_each_ofTrees (trees : List Tree) (span : Span) :
    (ofTrees trees span).nodes.all (Node.each leaf head) =
      (head (.program span) && Tree.eachAll leaf head trees) := by
  have stored := Tree.all_each_storeAll leaf head (empty span).nodes trees
  have start : (empty span).nodes.all (Node.each leaf head) = head (.program span) := by
    simp [empty, Node.each]
  rw [start] at stored
  rw [← stored]
  -- the root alone is put in the place of another node, and this has the same head
  have same : (ofTrees trees span).nodes.map (Node.each leaf head) =
      (Tree.storeAll (empty span).nodes trees).1.map (Node.each leaf head) := by
    apply Array.ext_getElem?
    intro id
    by_cases first : id = 0
    · subst first
      have old := Tree.storeAll_kept (empty span).nodes trees 0 (empty span).root_lt
      have new := get?_root_ofTrees trees span
      rw [get?, root] at new
      rw [Array.getElem?_map, Array.getElem?_map, old, new]
      simp [empty, Node.each]
    · simp [ofTrees, set, root, Ne.symm first]
  have whole := congrArg (fun marks => marks.all id) same
  simpa [Array.all_map] using whole

end LayoutMarkup
