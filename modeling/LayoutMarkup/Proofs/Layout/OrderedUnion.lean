import LayoutMarkup.Layout.Settings
import Mathlib.Data.List.Basic
import Mathlib.Data.List.Nodup
import Mathlib.Data.List.Pairwise

/-! United lists. Uniting goes through both lists and takes what it has not taken yet. What it has taken is
always what it has seen, each item once and in the order of the first occurrences; there is only one list
like this, from which it follows that uniting it with its parts again leaves it as it is. -/

namespace LayoutMarkup

section

variable {α : Type} [DecidableEq α]

/-- One turn of uniting: an item is taken unless it is there already. -/
def unite (united : List α) (item : α) : List α := if item ∈ united then united else united ++ [item]

theorem orderedUnion_eq_foldl (first second : List α) :
    orderedUnion first second = (first ++ second).foldl unite [] := rfl

/-- A list of just the items of another, in the order in which they occur there first. -/
structure KeepsFirst (items kept : List α) : Prop where
  covers : ∀ item, item ∈ kept ↔ item ∈ items
  ordered : kept.Pairwise fun one two => items.idxOf one < items.idxOf two

namespace KeepsFirst

variable {items more kept others : List α}

theorem nil : KeepsFirst ([] : List α) [] := ⟨fun _ => Iff.rfl, List.Pairwise.nil⟩

theorem nodup (keeps : KeepsFirst items kept) : kept.Nodup :=
  keeps.ordered.imp fun earlier same => absurd (same ▸ earlier) (Nat.lt_irrefl _)

/-- More items behind leave the first occurrences where they are. -/
theorem ordered_append (keeps : KeepsFirst items kept) (more : List α) :
    kept.Pairwise fun one two => (items ++ more).idxOf one < (items ++ more).idxOf two := by
  apply keeps.ordered.imp_of_mem
  intro one two first second earlier
  rw [List.idxOf_append_of_mem ((keeps.covers one).mp first),
    List.idxOf_append_of_mem ((keeps.covers two).mp second)]
  exact earlier

theorem of_known {item : α} (keeps : KeepsFirst items kept) (known : item ∈ kept) :
    KeepsFirst (items ++ [item]) kept where
  covers other := by
    have present := (keeps.covers item).mp known
    rw [keeps.covers, List.mem_append, List.mem_singleton]
    exact ⟨.inl, fun either => either.elim id fun same => same ▸ present⟩
  ordered := keeps.ordered_append [item]

theorem of_fresh {item : α} (keeps : KeepsFirst items kept) (fresh : item ∉ kept) :
    KeepsFirst (items ++ [item]) (kept ++ [item]) where
  covers other := by rw [List.mem_append, List.mem_append, keeps.covers]
  ordered := by
    have absent : item ∉ items := fun member => fresh ((keeps.covers item).mpr member)
    rw [List.pairwise_append]
    refine ⟨keeps.ordered_append [item], List.pairwise_singleton _ _, ?_⟩
    intro one member last own
    obtain rfl := List.mem_singleton.mp own
    have present := (keeps.covers one).mp member
    rw [List.idxOf_append_of_mem present, List.idxOf_append_of_notMem absent]
    exact Nat.lt_add_right _ (List.idxOf_lt_length_of_mem present)

/-- One turn of uniting goes on keeping what occurs first. -/
theorem step (keeps : KeepsFirst items kept) (item : α) :
    KeepsFirst (items ++ [item]) (unite kept item) := by
  unfold unite
  split
  · exact keeps.of_known ‹_›
  · exact keeps.of_fresh ‹_›

/-- So do all turns, one after the other. -/
theorem run (keeps : KeepsFirst items kept) (more : List α) :
    KeepsFirst (items ++ more) (more.foldl unite kept) := by
  induction more generalizing items kept with
  | nil => rwa [List.append_nil]
  | cons item more ih =>
    rw [List.foldl_cons, List.append_cons]
    exact ih (keeps.step item)

/-- Which items there are and where they occur first leaves no choice. -/
theorem unique (one : KeepsFirst items kept) (other : KeepsFirst items others) : kept = others := by
  have same : kept.Perm others := (List.perm_ext_iff_of_nodup one.nodup other.nodup).mpr
    fun item => (one.covers item).trans (other.covers item).symm
  apply same.eq_of_pairwise _ one.ordered other.ordered
  intro first second _ _ forth back
  exact absurd (Nat.lt_trans forth back) (Nat.lt_irrefl _)

/-- A list without repetitions keeps what occurs first in it and in items of its own behind it. -/
theorem of_nodup (distinct : kept.Nodup) (known : ∀ item ∈ more, item ∈ kept) :
    KeepsFirst (kept ++ more) kept where
  covers item := by
    rw [List.mem_append]
    exact ⟨.inl, fun either => either.elim id (known item)⟩
  ordered := by
    rw [List.pairwise_iff_getElem]
    intro i j lower upper less
    rw [List.idxOf_append_of_mem (List.getElem_mem lower),
      List.idxOf_append_of_mem (List.getElem_mem upper), distinct.idxOf_getElem,
      distinct.idxOf_getElem]
    exact less

end KeepsFirst

/-- Uniting only adds to what has been taken. -/
theorem prefix_foldl_unite (kept more : List α) : kept <+: more.foldl unite kept := by
  induction more generalizing kept with
  | nil => exact List.prefix_rfl
  | cons item more ih =>
    have turn : kept <+: unite kept item := by
      unfold unite
      split
      · exact List.prefix_rfl
      · exact List.prefix_append _ _
    exact turn.trans (ih _)

theorem keepsFirst_orderedUnion (first second : List α) :
    KeepsFirst (first ++ second) (orderedUnion first second) := by
  rw [orderedUnion_eq_foldl]
  exact KeepsFirst.nil.run (first ++ second)

theorem mem_orderedUnion {first second : List α} {item : α} :
    item ∈ orderedUnion first second ↔ item ∈ first ∨ item ∈ second :=
  ((keepsFirst_orderedUnion first second).covers item).trans List.mem_append

/-- What is kept of the first list stands in front. -/
theorem KeepsFirst.prefix_orderedUnion {first kept : List α} (keeps : KeepsFirst first kept)
    (second : List α) : kept <+: orderedUnion first second := by
  rw [(keepsFirst_orderedUnion first second).unique (keeps.run second)]
  exact prefix_foldl_unite kept second

theorem orderedUnion_eq_self {kept more : List α} (distinct : kept.Nodup)
    (known : ∀ item ∈ more, item ∈ kept) : orderedUnion kept more = kept :=
  (keepsFirst_orderedUnion kept more).unique (.of_nodup distinct known)

/-- An item that is left out since it is there already is found there first, or is not of the kind. -/
theorem find?_unite (kind : α → Bool) (united more : List α) (item : α) :
    (unite united item ++ more).find? kind = (united ++ item :: more).find? kind := by
  unfold unite
  split
  · rename_i known
    cases found : united.find? kind with
    | some own => simp [List.find?_append, found]
    | none =>
      have rejected := List.find?_eq_none.mp found item known
      simp [List.find?_append, found, rejected]
  · rw [List.append_assoc, List.singleton_append]

theorem find?_foldl_unite (kind : α → Bool) (united more : List α) :
    (more.foldl unite united).find? kind = (united ++ more).find? kind := by
  induction more generalizing united with
  | nil => rw [List.foldl_nil, List.append_nil]
  | cons item more ih => rw [List.foldl_cons, ih, find?_unite]

/-- The first item of its kind in a union is the first in both lists. -/
theorem find?_orderedUnion (kind : α → Bool) (first second : List α) :
    (orderedUnion first second).find? kind = (first ++ second).find? kind := by
  rw [orderedUnion_eq_foldl, find?_foldl_unite, List.nil_append]

end

namespace Settings

theorem converts_merge_iff (defaults : Defaults) (project : Project) (tag : String) :
    (merge defaults project).converts tag = true ↔
      project.transformAll = some true ∨ tag ∈ defaults.elements ∨ tag ∈ project.elements := by
  rw [converts, Bool.or_eq_true, List.contains_iff_mem]
  apply or_congr _ mem_orderedUnion
  rw [merge]
  cases project.transformAll <;> simp

/-- Two lists are united to the items of both, each once and in the order of their first occurrences; what
the first list comes down to by itself stands in front, and uniting the outcome with either list again
changes nothing. So of the tags that are built in and those of a project, all are converted, in whatever
order and however often they are listed, and no others unless the project has all of them converted. -/
theorem lists_are_united {α : Type} [DecidableEq α] (first second : List α) (defaults : Defaults)
    (project : Project) :
    (orderedUnion first second).Nodup ∧
    (∀ item, item ∈ orderedUnion first second ↔ item ∈ first ∨ item ∈ second) ∧
    KeepsFirst (first ++ second) (orderedUnion first second) ∧
    (∃ kept, KeepsFirst first kept ∧ kept <+: orderedUnion first second) ∧
    orderedUnion (orderedUnion first second) first = orderedUnion first second ∧
    orderedUnion (orderedUnion first second) second = orderedUnion first second ∧
    (∀ tag, (merge defaults project).converts tag = true ↔
      project.transformAll = some true ∨ tag ∈ defaults.elements ∨ tag ∈ project.elements) ∧
    ∀ builtIn own : List String, (∀ tag, tag ∈ builtIn ↔ tag ∈ defaults.elements) →
      (∀ tag, tag ∈ own ↔ tag ∈ project.elements) →
      ∀ tag, (merge { defaults with elements := builtIn } { project with elements := own }).converts tag =
        (merge defaults project).converts tag := by
  have keeps := keepsFirst_orderedUnion first second
  refine ⟨keeps.nodup, fun _ => mem_orderedUnion, keeps, ?_, ?_, ?_, converts_merge_iff defaults project,
    ?_⟩
  · have alone := KeepsFirst.nil.run first
    exact ⟨_, alone, alone.prefix_orderedUnion second⟩
  · exact orderedUnion_eq_self keeps.nodup fun _ member => mem_orderedUnion.mpr (.inl member)
  · exact orderedUnion_eq_self keeps.nodup fun _ member => mem_orderedUnion.mpr (.inr member)
  · intro builtIn own sameBuiltIn sameOwn tag
    rw [Bool.eq_iff_iff, converts_merge_iff, converts_merge_iff, sameBuiltIn, sameOwn]

/-- Lists with items that are repeated and items in common, and the tags of a project that repeats a tag
and one that is built in. -/
theorem lists_are_united_of_panels :
    let project := ((Project.empty.withElement "panel").withElement "box").withElement "panel"
    let own := ["box", "box", "panel"]
    orderedUnion ["b", "a", "b"] ["c", "a", "d", "c"] = ["b", "a", "c", "d"] ∧
      orderedUnion (orderedUnion ["b", "a", "b"] ["c", "a", "d", "c"]) ["c", "a", "d", "c"] =
        ["b", "a", "c", "d"] ∧
      (∀ tag, tag ∈ own ↔ tag ∈ project.elements) ∧
      (merge .standard { project with elements := own }).converts "panel" = true ∧
      (merge .standard { project with elements := own }).converts "p" = false := by
  intro project own
  have united : orderedUnion ["b", "a", "b"] ["c", "a", "d", "c"] = ["b", "a", "c", "d"] := by decide
  have same : ∀ tag, tag ∈ own ↔ tag ∈ project.elements := by
    intro tag
    simp [own, project, Project.withElement, Project.empty, or_comm, or_left_comm]
  obtain ⟨-, -, -, -, -, again, tags, order⟩ := lists_are_united ["b", "a", "b"] ["c", "a", "d", "c"]
    .standard project
  have converted := order Defaults.standard.elements own (fun _ => Iff.rfl) same
  refine ⟨united, again.trans united, same, ?_, ?_⟩
  · exact (converted "panel").trans ((tags "panel").mpr (.inr (.inr (by decide))))
  · rw [← Bool.not_eq_true]
    intro other
    exact absurd ((tags "p").mp ((converted "p").symm.trans other)) (by decide)

end Settings

end LayoutMarkup
