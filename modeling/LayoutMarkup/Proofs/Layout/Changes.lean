import LayoutMarkup.Layout.Build
import LayoutMarkup.Proofs.Layout.Passes
import LayoutMarkup.Proofs.Template.Parents

/-! Changes in a row. Passes and builds can be asked for in any order, with any settings, and one that
fails does not keep the next from being tried; whatever they do, no node comes, goes or moves. -/

namespace LayoutMarkup

/-- What can be asked for: one of the passes, or a build with both. -/
inductive Change where
  | conversion (settings : Settings)
  | component
  | build (settings : Settings)

namespace Change

def run : Change → Template → Template × Option LayoutError
  | .conversion settings, template => settings.conversion.run template
  | .component, template => Pass.component.run template
  | .build settings, template => settings.build template

/-- What is left after one change and then the next, whether or not they succeed. -/
def runEach (changes : List Change) (template : Template) : Template :=
  changes.foldl (fun template change => (change.run template).1) template

end Change

/-- Two templates with the same nodes at the same places, whatever the nodes hold. -/
structure Template.SameShape (first second : Template) : Prop where
  size : first.size = second.size
  children : ∀ id, first.children id = second.children id

namespace Template.SameShape

variable {first second third : Template}

theorem refl (template : Template) : template.SameShape template := ⟨rfl, fun _ => rfl⟩

theorem trans (one : first.SameShape second) (two : second.SameShape third) :
    first.SameShape third :=
  ⟨one.size.trans two.size, fun id => (one.children id).trans (two.children id)⟩

theorem descendants (same : first.SameShape second) : first.descendants = second.descendants := by
  unfold Template.descendants
  rw [same.size]
  exact preorder_congr same.children _ _

end Template.SameShape

variable (template : Template)

theorem Pass.sameShape_run (pass : Pass) : (pass.run template).1.SameShape template :=
  ⟨Template.size_applyEach pass.rule template _, Template.children_applyEach pass.rule template _⟩

theorem Pass.sameShape_runAll (passes : List Pass) :
    (Pass.runAll passes template).1.SameShape template := by
  induction passes generalizing template with
  | nil => exact .refl template
  | cons pass passes ih =>
    have here := pass.sameShape_run template
    rw [runAll]
    split
    · rename_i run
      rwa [run] at here
    · rename_i run
      rw [run] at here
      exact (ih _).trans here

namespace Change

theorem sameShape_run (change : Change) : (change.run template).1.SameShape template := by
  cases change with
  | conversion settings => exact settings.conversion.sameShape_run template
  | component => exact Pass.component.sameShape_run template
  | build settings => exact Pass.sameShape_runAll template settings.passes

theorem sameShape_runEach (changes : List Change) :
    (runEach changes template).SameShape template := by
  induction changes generalizing template with
  | nil => exact .refl template
  | cons change changes ih => exact (ih _).trans (change.sameShape_run template)

/-- What was read is numbered as a tree, and no row of changes, with failures or without, alters the
number of nodes, the children of a node or the order of all nodes. -/
theorem numbered_and_kept {source : String} {template : Template}
    (read : Template.read source = .ok template) :
    template.IsNumbered ∧
      ∀ changes : List Change,
        (runEach changes template).size = template.size ∧
        (∀ id, (runEach changes template).children id = template.children id) ∧
        (runEach changes template).descendants = template.descendants := by
  refine ⟨Template.isNumbered_of_read read, fun changes => ?_⟩
  have same := sameShape_runEach template changes
  exact ⟨same.size, same.children, same.descendants⟩

/-- A build that is refused on its way, and components made after it all the same. -/
theorem numbered_and_kept_past_refusal :
    let settings := Settings.ofProject (Project.empty.withBreakpoint ⟨"sm", none, none⟩)
    ∃ template,
      Template.read "<container fit><box sm='13'></box>a</container>" = .ok template ∧
      template.IsNumbered ∧
      ((Change.build settings).run template).2.isSome ∧
      ((runEach [.build settings, .component] template).get? 3).map Node.kind =
        some "BlockStatement" ∧
      (runEach [.build settings, .component] template).children 3 = [1, 2] ∧
      (runEach [.build settings, .component] template).descendants = [0, 3, 1, 2] := by
  intro settings
  have facts : (Template.read "<container fit><box sm='13'></box>a</container>").toOption.any
      (fun template => ((Change.build settings).run template).2.isSome &&
        ((runEach [.build settings, .component] template).get? 3).map Node.kind =
          some "BlockStatement" &&
        template.children 3 = [1, 2] && template.descendants = [0, 3, 1, 2]) = true := by
    decide +kernel
  obtain ⟨template, read, checked⟩ := Template.exists_of_any facts
  simp only [Bool.and_eq_true, decide_eq_true_eq] at checked
  obtain ⟨⟨⟨refused, changed⟩, below⟩, order⟩ := checked
  obtain ⟨numbered, kept⟩ := numbered_and_kept read
  obtain ⟨-, children, descendants⟩ := kept [.build settings, .component]
  exact ⟨template, read, numbered, refused, changed, (children 3).trans below,
    descendants.trans order⟩

end Change

end LayoutMarkup
