import LayoutMarkup.Proofs.Template.Subtrees

/-! The mustaches at the nodes of a template: a mustache that is a leaf, the opening of a block, and
those in the values of attributes. In a template that was read each of them is one that was read. -/

namespace LayoutMarkup

def Part.call? : Part → Option Call
  | .text _ => none
  | .mustache call => some call

/-- The mustaches in a value. -/
def AttributeValue.calls : AttributeValue → List Call
  | .text _ => []
  | .mustache call => [call]
  | .concat parts _ => parts.filterMap Part.call?

/-- The mustache that a leaf is, the opening of a block, or the mustaches in the attributes of an element. -/
def Node.calls : Node → List Call
  | .leaf (.mustache call) => [call]
  | .leaf _ => []
  | .branch (.element element) _ => element.attributes.flatMap fun attr => attr.value.calls
  | .branch (.block block) _ => [block.call]
  | .branch (.program _) _ => []

theorem Part.mem_calls {parts : List Part} {call : Call} :
    call ∈ parts.filterMap Part.call? ↔ Part.mustache call ∈ parts := by
  simp only [List.mem_filterMap]
  constructor
  · rintro ⟨part, inside, same⟩
    cases part with
    | text literal => cases same
    | mustache own =>
      cases same
      exact inside
  · intro inside
    exact ⟨_, inside, rfl⟩

/-- Every mustache in a value that was read is one that was read. -/
theorem AttributeValue.IsRead.meets {value : AttributeValue} (read : value.IsRead) :
    ∀ call ∈ value.calls, call.meets .asRead = true := by
  cases value with
  | text literal => simp [calls]
  | mustache call =>
    intro other member
    rw [List.mem_singleton.mp member]
    exact read
  | concat parts span => exact fun call member => read.1.meets (Part.mem_calls.mp member)

namespace Template

variable {source : String} {template : Template}

/-- Every mustache in a template that was read is one that was read. -/
theorem meets_of_mem_calls (found : read source = .ok template) {id : NodeId} {node : Node}
    (here : template.get? id = some node) {call : Call} (member : call ∈ node.calls) :
    call.meets .asRead = true := by
  obtain ⟨trees, cursor, finished, rfl⟩ := exists_trees_of_read found
  have legal := Tree.allRead_of_read finished
  match node with
  | .leaf (.mustache own) =>
    obtain ⟨next, read⟩ := isRead_of_get?_leaf legal here
    rw [List.mem_singleton.mp member]
    exact read
  | .leaf (.text _) => cases member
  | .leaf (.comment _) => cases member
  | .branch (.program _) _ => cases member
  | .branch (.element element) _ =>
    have read := isRead_of_get?_branch legal here (ne_root_of_get? here (by simp))
    obtain ⟨attr, own, inside⟩ := List.mem_flatMap.mp member
    exact (read.attributes attr own).value.meets call inside
  | .branch (.block block) _ =>
    have read := isRead_of_get?_branch legal here (ne_root_of_get? here (by simp))
    rw [List.mem_singleton.mp member]
    exact read

end Template

end LayoutMarkup
