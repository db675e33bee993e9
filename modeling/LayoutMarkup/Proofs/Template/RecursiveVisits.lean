import LayoutMarkup.Proofs.Template.Acyclic

/-! Walks as recursive visits. A recursive visit calls the visitor on a node and then visits the
children that the node has by then, from left to right; a walk gets by with a stack of the nodes that
wait. Whatever the visitor does to the template, both call it in the same order on the same states and
come to the same end. -/

namespace LayoutMarkup

namespace Template

variable {σ ε : Type}

mutual

/-- The recursive visit of a node: its calls of the visitor, each with the state that it meets, the
state in the end, and the failure if there is one. It exists if and only if the recursion ends. -/
inductive Visits (visit : Visitor σ ε) : NodeId → Template × σ → List (NodeId × Template × σ) →
    Template × σ → Option ε → Prop where
  | stopped {id : NodeId} {state after : Template × σ} {failure : ε}
      (called : visit id state = (after, some failure)) :
      Visits visit id state [(id, state)] after (some failure)
  | descended {id : NodeId} {state middle after : Template × σ}
      {calls : List (NodeId × Template × σ)} {result : Option ε}
      (called : visit id state = (middle, none))
      (below : VisitsEach visit (middle.1.children id) middle calls after result) :
      Visits visit id state ((id, state) :: calls) after result

/-- Recursive visits of nodes from left to right, up to the first failure. -/
inductive VisitsEach (visit : Visitor σ ε) : List NodeId → Template × σ →
    List (NodeId × Template × σ) → Template × σ → Option ε → Prop where
  | done {state : Template × σ} : VisitsEach visit [] state [] state none
  | stopped {id : NodeId} {ids : List NodeId} {state after : Template × σ}
      {calls : List (NodeId × Template × σ)} {failure : ε}
      (first : Visits visit id state calls after (some failure)) :
      VisitsEach visit (id :: ids) state calls after (some failure)
  | next {id : NodeId} {ids : List NodeId} {state middle after : Template × σ}
      {calls more : List (NodeId × Template × σ)} {result : Option ε}
      (first : Visits visit id state calls middle none)
      (others : VisitsEach visit ids middle more after result) :
      VisitsEach visit (id :: ids) state (calls ++ more) after result

end

/-- A visitor that leaves the template alone. Its own state may change, and it may fail. -/
def Visitor.KeepsTemplate (visit : Visitor σ ε) : Prop :=
  ∀ id state, (visit id state).1.1 = state.1

/-- The visitor with a record of its calls, each with the state that it meets. -/
def Visitor.recorded (visit : Visitor σ ε) : Visitor (σ × List (NodeId × Template × σ)) ε :=
  fun id (template, own, calls) =>
    let outcome := visit id (template, own)
    ((outcome.1.1, outcome.1.2, calls ++ [(id, template, own)]), outcome.2)

/-- How a walk goes on from an outcome: with the nodes that wait, unless there is a failure. -/
def walkOn (visit : Visitor σ ε) (fuel : Nat) (waiting : List NodeId) :
    (Template × σ) × Option ε → Option ((Template × σ) × Option ε)
  | (state, some failure) => some (state, some failure)
  | (state, none) => walkFrom visit fuel waiting state

variable {visit : Visitor σ ε} {id : NodeId} {ids waiting : List NodeId}
  {state after : Template × σ} {calls record : List (NodeId × Template × σ)} {result : Option ε}
  {fuel depth : Nat}

/-- A walk calls the visitor on the node on top of its stack, and puts the children that the node has
by then in its place. -/
theorem walkFrom_cons (visit : Visitor σ ε) (fuel : Nat) (id : NodeId) (waiting : List NodeId)
    (state : Template × σ) :
    walkFrom visit (fuel + 1) (id :: waiting) state =
      walkOn visit fuel ((visit id state).1.1.children id ++ waiting) (visit id state) := by
  rw [walkFrom]
  split <;> rename_i called <;> rw [called, walkOn]

mutual

/-- A walk that has a node on top of its stack makes the calls of the recursive visit of the node, and
goes on from its outcome with the rest of the stack. -/
theorem walkFrom_of_visits {id : NodeId} {state after : Template × σ}
    {calls : List (NodeId × Template × σ)} {result : Option ε} :
    Visits visit id state calls after result →
      ∀ (fuel : Nat) (waiting : List NodeId) (record : List (NodeId × Template × σ)),
        walkFrom visit.recorded (calls.length + fuel) (id :: waiting) (state.1, state.2, record) =
          walkOn visit.recorded fuel waiting ((after.1, after.2, record ++ calls), result)
  | .stopped called, fuel, waiting, record => by
    rw [List.length_singleton, Nat.add_comm, walkFrom_cons]
    simp only [Visitor.recorded, called, walkOn]
  | .descended called below, fuel, waiting, record => by
    have rest := walkFrom_of_visitsEach below fuel waiting (record ++ [(id, state)])
    rw [List.append_assoc, List.singleton_append] at rest
    rw [List.length_cons, Nat.add_right_comm, walkFrom_cons, ← rest]
    simp only [Visitor.recorded, called, walkOn]

theorem walkFrom_of_visitsEach {ids : List NodeId} {state after : Template × σ}
    {calls : List (NodeId × Template × σ)} {result : Option ε} :
    VisitsEach visit ids state calls after result →
      ∀ (fuel : Nat) (waiting : List NodeId) (record : List (NodeId × Template × σ)),
        walkFrom visit.recorded (calls.length + fuel) (ids ++ waiting) (state.1, state.2, record) =
          walkOn visit.recorded fuel waiting ((after.1, after.2, record ++ calls), result)
  | .done, fuel, waiting, record => by simp [walkOn]
  | .stopped first, fuel, waiting, record => walkFrom_of_visits first fuel _ record
  | .next first others, fuel, waiting, record => by
    rw [List.length_append, Nat.add_assoc, List.cons_append, walkFrom_of_visits first _ _ record,
      walkOn, walkFrom_of_visitsEach others fuel waiting, List.append_assoc]

end

/-- Visits of two lists of nodes are those of the first and, unless these fail, those of the second. -/
theorem VisitsEach.split (visits : VisitsEach visit (ids ++ waiting) state calls after result) :
    (∃ failure, result = some failure ∧ VisitsEach visit ids state calls after (some failure)) ∨
      ∃ middle first others, calls = first ++ others ∧
        VisitsEach visit ids state first middle none ∧
        VisitsEach visit waiting middle others after result := by
  induction ids generalizing state calls with
  | nil => exact Or.inr ⟨state, [], calls, rfl, .done, visits⟩
  | cons id ids ih =>
    cases visits with
    | stopped first => exact Or.inl ⟨_, rfl, .stopped first⟩
    | next first others =>
      rcases ih others with ⟨failure, failed, inside⟩ | ⟨middle, inside, behind, rfl, done, rest⟩
      · exact Or.inl ⟨failure, failed, .next first inside⟩
      · exact Or.inr ⟨middle, _, behind, (List.append_assoc _ _ _).symm, .next first done, rest⟩

/-- If a node is visited without a failure of the visitor, and then its children before the nodes that
wait, then the node has been visited before the nodes that wait. -/
theorem VisitsEach.gather {middle : Template × σ} (called : visit id state = (middle, none))
    (visits : VisitsEach visit (middle.1.children id ++ waiting) middle calls after result) :
    VisitsEach visit (id :: waiting) state ((id, state) :: calls) after result := by
  rcases visits.split with ⟨failure, rfl, inside⟩ | ⟨between, inside, behind, rfl, done, rest⟩
  · exact .stopped (.descended called inside)
  · exact .next (.descended called done) rest

/-- The calls of a walk are those of recursive visits of the nodes on its stack. -/
theorem visitsEach_of_walkFrom {final : List (NodeId × Template × σ)}
    (walked : walkFrom visit.recorded fuel waiting (state.1, state.2, record) =
      some ((after.1, after.2, final), result)) :
    ∃ calls, final = record ++ calls ∧ VisitsEach visit waiting state calls after result := by
  induction fuel generalizing waiting state record with
  | zero =>
    cases waiting with
    | nil =>
      simp only [walkFrom, Option.some.injEq, Prod.mk.injEq] at walked
      obtain ⟨⟨store, own, rfl⟩, rfl⟩ := walked
      obtain rfl : state = after := Prod.ext store own
      exact ⟨[], by simp, .done⟩
    | cons id waiting => cases walked
  | succ fuel ih =>
    cases waiting with
    | nil =>
      simp only [walkFrom, Option.some.injEq, Prod.mk.injEq] at walked
      obtain ⟨⟨store, own, rfl⟩, rfl⟩ := walked
      obtain rfl : state = after := Prod.ext store own
      exact ⟨[], by simp, .done⟩
    | cons id waiting =>
      rw [walkFrom_cons] at walked
      rcases called : visit id state with ⟨middle, _ | failure⟩
      · simp only [Visitor.recorded, called, walkOn] at walked
        obtain ⟨calls, rfl, visits⟩ := ih walked
        exact ⟨(id, state) :: calls, by simp, visits.gather called⟩
      · simp only [Visitor.recorded, called, walkOn, Option.some.injEq, Prod.mk.injEq] at walked
        obtain ⟨⟨store, own, rfl⟩, rfl⟩ := walked
        obtain rfl : middle = after := Prod.ext store own
        exact ⟨[(id, state)], rfl, .stopped (.stopped called)⟩

/-- The record changes nothing of what a walk does. -/
theorem walkFrom_recorded (visit : Visitor σ ε) (fuel : Nat) (waiting : List NodeId)
    (state : Template × σ) (record : List (NodeId × Template × σ)) :
    (walkFrom visit.recorded fuel waiting (state.1, state.2, record)).map
      (fun outcome => ((outcome.1.1, outcome.1.2.1), outcome.2)) =
        walkFrom visit fuel waiting state := by
  induction fuel generalizing waiting state record with
  | zero => cases waiting <;> rfl
  | succ fuel ih =>
    cases waiting with
    | nil => rfl
    | cons id waiting =>
      rw [walkFrom_cons, walkFrom_cons]
      rcases called : visit id state with ⟨middle, _ | failure⟩
      · simp only [Visitor.recorded, called, walkOn]
        exact ih _ _ _
      · simp only [Visitor.recorded, called, walkOn, Option.map_some]

/-- Without nodes that wait, an outcome is the end of a walk. -/
theorem walkOn_nil (visit : Visitor σ ε) (fuel : Nat) (outcome : (Template × σ) × Option ε) :
    walkOn visit fuel [] outcome = some outcome := by
  obtain ⟨state, _ | failure⟩ := outcome
  · cases fuel <;> rfl
  · rfl

/-- A walk ends as the recursive visit of the root does, when it may make as many calls. -/
theorem walk_of_visits {template : Template} {own : σ}
    (visits : Visits visit root (template, own) calls after result) (enough : calls.length ≤ fuel) :
    template.walk visit own fuel = some (after, result) ∧
      template.walk visit.recorded (own, []) fuel = some ((after.1, after.2, calls), result) := by
  have recorded : template.walk visit.recorded (own, []) fuel =
      some ((after.1, after.2, calls), result) := by
    have walked := walkFrom_of_visits visits (fuel - calls.length) [] []
    rwa [Nat.add_sub_cancel' enough, walkOn_nil, List.nil_append] at walked
  refine ⟨?_, recorded⟩
  have same := walkFrom_recorded visit fuel [root] (template, own) []
  rw [walk] at recorded ⊢
  rw [← same, recorded, Option.map_some]

mutual

/-- Visits that leave the template alone end only where all paths down end. -/
theorem kept_of_visits (keeps : visit.KeepsTemplate) {id : NodeId} {state after : Template × σ}
    {calls : List (NodeId × Template × σ)} {result : Option ε} :
    Visits visit id state calls after result →
      after.1 = state.1 ∧ (result = none → state.1.EndsWithin calls.length id)
  | .stopped called => by
    have kept := keeps id state
    rw [called] at kept
    exact ⟨kept, nofun⟩
  | .descended called below => by
    have kept := keeps id state
    obtain ⟨same, ends⟩ := kept_of_visitsEach keeps below
    rw [called] at kept
    rw [kept] at same ends
    exact ⟨same, ends⟩

theorem kept_of_visitsEach (keeps : visit.KeepsTemplate) {ids : List NodeId} {state after : Template × σ}
    {calls : List (NodeId × Template × σ)} {result : Option ε} :
    VisitsEach visit ids state calls after result →
      after.1 = state.1 ∧ (result = none → ∀ id ∈ ids, state.1.EndsWithin calls.length id)
  | .done => ⟨rfl, by simp⟩
  | .stopped first => ⟨(kept_of_visits keeps first).1, nofun⟩
  | .next first others => by
    obtain ⟨between, here⟩ := kept_of_visits keeps first
    obtain ⟨same, ends⟩ := kept_of_visitsEach keeps others
    rw [between] at same ends
    refine ⟨same, fun finished other member => ?_⟩
    rw [List.length_append]
    rcases List.mem_cons.mp member with rfl | later
    · exact (here rfl).mono (Nat.le_add_right _ _)
    · exact (ends finished other later).mono (Nat.le_add_left _ _)

end

mutual

/-- Where all paths down end, visits that leave the template alone go through its nodes in document
order, and come to the last of them unless the visitor fails. -/
theorem order_of_visits (keeps : visit.KeepsTemplate) {id : NodeId} {state after : Template × σ}
    {calls : List (NodeId × Template × σ)} {result : Option ε} :
    Visits visit id state calls after result → ∀ depth, state.1.EndsWithin depth id →
      calls.map Prod.fst <+: state.1.preorder depth id ∧
        (result = none → calls.map Prod.fst = state.1.preorder depth id)
  | .stopped called, depth, ends => by
    rw [preorder_eq_cons ends]
    exact ⟨List.cons_prefix_cons.mpr ⟨rfl, List.nil_prefix⟩, nofun⟩
  | .descended called below, depth, ends => by
    have kept := keeps id state
    rw [called] at kept
    have inside := order_of_visitsEach keeps below depth
    rw [kept] at inside
    obtain ⟨front, whole⟩ := inside fun child member => ends.child member
    rw [preorder_eq_cons ends, List.map_cons]
    exact ⟨List.cons_prefix_cons.mpr ⟨rfl, front⟩, fun finished => by rw [whole finished]⟩

theorem order_of_visitsEach (keeps : visit.KeepsTemplate) {ids : List NodeId} {state after : Template × σ}
    {calls : List (NodeId × Template × σ)} {result : Option ε} :
    VisitsEach visit ids state calls after result →
      ∀ depth, (∀ id ∈ ids, state.1.EndsWithin depth id) →
        calls.map Prod.fst <+: ids.flatMap (state.1.preorder depth) ∧
          (result = none → calls.map Prod.fst = ids.flatMap (state.1.preorder depth))
  | .done, _, _ => ⟨List.nil_prefix, fun _ => rfl⟩
  | .stopped first, depth, ends => by
    have front := (order_of_visits keeps first depth (ends _ List.mem_cons_self)).1
    exact ⟨front.trans (List.prefix_append _ _), nofun⟩
  | .next first others, depth, ends => by
    have whole := (order_of_visits keeps first depth (ends _ List.mem_cons_self)).2 rfl
    have rest := order_of_visitsEach keeps others depth
    rw [(kept_of_visits keeps first).1] at rest
    obtain ⟨front, last⟩ := rest fun other member => ends other (List.mem_cons_of_mem _ member)
    rw [List.map_append, List.flatMap_cons, whole]
    exact ⟨(List.prefix_append_right_inj _).mpr front, fun finished => by rw [last finished]⟩

end

/-- Where all paths down end, so do the visits of a visitor that leaves the template alone and never
fails. -/
theorem exists_visits (keeps : visit.KeepsTemplate) (never : ∀ id state, (visit id state).2 = none)
    (ends : state.1.EndsWithin depth id) : ∃ calls after, Visits visit id state calls after none := by
  induction depth generalizing id state with
  | zero => exact ends.elim
  | succ depth ih =>
    have each : ∀ (ids : List NodeId) (current : Template × σ),
        (∀ child ∈ ids, current.1.EndsWithin depth child) →
          ∃ calls after, VisitsEach visit ids current calls after none := by
      intro ids
      induction ids with
      | nil => exact fun current _ => ⟨[], current, .done⟩
      | cons child ids others =>
        intro current below
        obtain ⟨calls, middle, first⟩ := ih (below child List.mem_cons_self)
        have kept := (kept_of_visits keeps first).1
        obtain ⟨more, after, rest⟩ := others middle fun other member => by
          rw [kept]
          exact below other (List.mem_cons_of_mem child member)
        exact ⟨calls ++ more, after, .next first rest⟩
    have called : visit id state = ((visit id state).1, none) := Prod.ext rfl (never id state)
    obtain ⟨calls, after, below⟩ := each ((visit id state).1.1.children id) (visit id state).1 (by
      rw [keeps id state]
      exact ends)
    exact ⟨(id, state) :: calls, after, .descended called below⟩

/-- If the recursive visit of the root ends, whatever the visitor does on its way, then a walk that may
make as many calls makes the same calls in the same states, and ends with the same template, state and
result; and a walk that ends makes the calls of the recursive visit. A visitor that leaves the template
alone is called on all nodes in document order, as far as it does not fail. -/
theorem walk_eq_recursive_visits (visit : Visitor σ ε) (template : Template) (own : σ) :
    (∀ calls after result, Visits visit root (template, own) calls after result →
      ∀ fuel, calls.length ≤ fuel →
        template.walk visit own fuel = some (after, result) ∧
        template.walk visit.recorded (own, []) fuel = some ((after.1, after.2, calls), result)) ∧
    (∀ fuel calls after result,
      template.walk visit.recorded (own, []) fuel = some ((after.1, after.2, calls), result) →
        Visits visit root (template, own) calls after result) ∧
    (visit.KeepsTemplate →
      (∀ calls after, Visits visit root (template, own) calls after none →
        after.1 = template ∧ calls.map Prod.fst = template.descendants) ∧
      (template.IsAcyclic →
        (∀ calls after result, Visits visit root (template, own) calls after result →
          calls.map Prod.fst <+: template.descendants) ∧
        ((∀ id state, (visit id state).2 = none) →
          ∃ calls after, Visits visit root (template, own) calls after none))) := by
  refine ⟨fun calls after result visits fuel enough => walk_of_visits visits enough, ?_, ?_⟩
  · intro fuel calls after result walked
    let start : Template × σ := (template, own)
    have recorded : walkFrom visit.recorded fuel [root] (start.1, start.2, []) =
        some ((after.1, after.2, calls), result) := walked
    obtain ⟨made, rfl, visits⟩ := visitsEach_of_walkFrom recorded
    cases visits with
    | stopped first => exact first
    | next first others =>
      cases others with
      | done => simpa using first
  · intro keeps
    refine ⟨fun calls after visits => ?_, fun acyclic => ⟨fun calls after result visits => ?_, ?_⟩⟩
    · obtain ⟨same, ends⟩ := kept_of_visits keeps visits
      refine ⟨same, ?_⟩
      rw [descendants_eq_preorder (ends rfl)]
      exact (order_of_visits keeps visits _ (ends rfl)).2 rfl
    · exact (order_of_visits keeps visits _ (endsWithin_of_isAcyclic acyclic)).1
    · intro never
      exact exists_visits keeps never (endsWithin_of_isAcyclic acyclic)

/-- A visitor that turns round the children of each node and fails on the fourth: it comes to `c` before
`a`, and to `b` before the text. One that counts the nodes comes to all of them in their order. -/
theorem walk_eq_recursive_visits_of_reversal :
    let reversing : Visitor Nat Unit := fun id state =>
      ((state.1.modify id (Node.mapChildren List.reverse), state.2 + 1),
        if state.2 = 3 then some () else none)
    let counting : Visitor Nat Unit := fun _ state => ((state.1, state.2 + 1), none)
    ∃ template calls after, Template.read "<a>x<b/></a><c/>" = .ok template ∧
      Visits reversing root (template, 0) calls after (some ()) ∧
      calls.map Prod.fst = [0, 4, 3, 2] ∧ calls.length ≤ 9 ∧
      template.walk reversing 0 9 = some (after, some ()) ∧
      counting.KeepsTemplate ∧ template.IsAcyclic ∧
      ∃ counted final, Visits counting root (template, 0) counted final none ∧
        counted.map Prod.fst = template.descendants := by
  intro reversing counting
  have facts : (Template.read "<a>x<b/></a><c/>").toOption.any (fun template =>
      (template.walk reversing.recorded (0, []) 9).any fun outcome =>
        outcome.1.2.2.map Prod.fst = [0, 4, 3, 2] && outcome.2 = some ()) = true := by
    decide +kernel
  obtain ⟨template, read, checked⟩ := Template.exists_of_any facts
  simp only [Option.any_eq_true, Bool.and_eq_true, decide_eq_true_eq] at checked
  obtain ⟨⟨⟨store, own, calls⟩, result⟩, walked, order, rfl⟩ := checked
  obtain ⟨ends, back, -⟩ := walk_eq_recursive_visits reversing template 0
  have visits := back 9 calls (store, own) (some ()) walked
  have few : calls.length ≤ 9 := by
    rw [← List.length_map (f := Prod.fst), order]
    decide
  have acyclic : template.IsAcyclic := isAcyclic_of_endsWithin (isTree_of_read read).ends
  obtain ⟨-, -, keeping⟩ := walk_eq_recursive_visits counting template 0
  obtain ⟨whole, rest⟩ := keeping fun _ _ => rfl
  obtain ⟨counted, final, all⟩ := (rest acyclic).2 fun _ _ => rfl
  exact ⟨template, calls, (store, own), read, visits, order, few, (ends _ _ _ visits 9 few).1,
    fun _ _ => rfl, acyclic, counted, final, all, (whole counted final all).2⟩

end Template

end LayoutMarkup
