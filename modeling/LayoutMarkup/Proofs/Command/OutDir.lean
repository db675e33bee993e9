import LayoutMarkup.Command.Compile
import LayoutMarkup.Proofs.Command.Files

/-! Outputs in a directory. Templates are compiled one after the other, and each output is written
under the name of its template's file; so a name ends up with the last output that went there. -/

namespace LayoutMarkup.Command

variable {σ : Type}

/-- What is known of files in a directory: a file that was written holds what was written, and the other
names of the directory stand for what they stood for. -/
structure Host.Stores (host : Host (StateM σ)) (directory : String) : Prop where
  reading : ∀ path before, (host.read path before).2 = before
  written : ∀ name text before after, IsFileName name →
    host.write (joinPath directory name) text before = (.ok (), after) →
    (host.read (joinPath directory name) after).1 = .ok (.text text)
  others : ∀ name other text before after, IsFileName name → IsFileName other → other ≠ name →
    host.write (joinPath directory name) text before = (.ok (), after) →
    (host.read (joinPath directory other) after).1 = (host.read (joinPath directory other) before).1

/-- Reading leaves everything as it is. -/
def Host.OnlyReads (host : Host (StateM σ)) : Prop := ∀ path before, (host.read path before).2 = before

/-- A path lies outside of a directory: making the directory, or writing files into it, leaves what the
path leads to. -/
structure Host.Outside (host : Host (StateM σ)) (directory path : String) : Prop where
  made : ∀ content before after, host.makeDirectories directory before = (.ok (), after) →
    (host.read path before).1 = .ok content → (host.read path after).1 = .ok content
  written : ∀ name text content before after, IsFileName name →
    host.write (joinPath directory name) text before = (.ok (), after) →
    (host.read path before).1 = .ok content → (host.read path after).1 = .ok content

/-- The text that a file holds. -/
def text? (host : Host (StateM σ)) (path : String) (state : σ) : Option String :=
  match (host.read path state).1 with
  | .ok content => content.text?
  | .error _ => none

/-- What the template at a path compiles to. -/
def output? (host : Host (StateM σ)) (settings : Settings) (path : String) (state : σ) :
    Option String :=
  (text? host path state).bind fun source => (compileSource settings source).toOption

/-- The last of some paths whose file has a name. -/
def lastNamed? (name : String) (paths : List String) : Option String :=
  paths.reverse.find? fun path => fileName? path = some name

theorem lastNamed?_cons (name path : String) (paths : List String) :
    lastNamed? name (path :: paths) =
      (lastNamed? name paths).or (if fileName? path = some name then some path else none) := by
  simp only [lastNamed?, List.reverse_cons, List.find?_append, List.find?_singleton,
    decide_eq_true_eq]

variable {host : Host (StateM σ)} {settings : Settings} {directory : String}

theorem readText_eq (reading : host.OnlyReads) (path : String) (state : σ) :
    readText host path state =
      (match (host.read path state).1 with
        | .error error => .error error
        | .ok content => content.text?.elim (.error .notText) .ok, state) := by
  have kept := reading path state
  unfold readText
  simp only [bind, StateT.bind]
  rw [← Prod.eta (host.read path state), kept]
  cases (host.read path state).1 <;> rfl

/-- Reading a file of text gives the text that it holds, or an error if it holds none. -/
theorem readText_cases (reading : host.OnlyReads) (path : String) (state : σ) :
    (∃ source, text? host path state = some source ∧
        readText host path state = (.ok source, state)) ∨
      (text? host path state = none ∧ ∃ error, readText host path state = (.error error, state)) := by
  rw [readText_eq reading, text?]
  cases (host.read path state).1 with
  | error error => exact .inr ⟨rfl, error, rfl⟩
  | ok content =>
    cases text : content.text? with
    | none => exact .inr ⟨text, .notText, by simp only [text, Option.elim]⟩
    | some source => exact .inl ⟨source, text, by simp only [text, Option.elim]⟩

theorem text?_of_readText (reading : host.OnlyReads) {path source : String} {before after : σ}
    (done : readText host path before = (.ok source, after)) :
    text? host path before = some source ∧ after = before := by
  rcases readText_cases reading path before with ⟨own, held, read⟩ | ⟨-, error, read⟩
  · rw [read] at done
    cases done
    exact ⟨held, rfl⟩
  · rw [read] at done
    cases done

theorem write_of_deliver {path output : String} {before after : σ}
    (done : deliver host (some directory) path output before = (none, after)) :
    ∃ name, fileName? path = some name ∧
      host.write (joinPath directory name) output before = (.ok (), after) := by
  unfold deliver at done
  cases named : fileName? path with
  | none =>
    rw [named] at done
    cases done
  | some name =>
    simp only [named, bind, StateT.bind] at done
    cases wrote : host.write (joinPath directory name) output before with
    | mk result after' =>
      rw [wrote] at done
      cases result with
      | error error => cases done
      | ok _ =>
        cases done
        exact ⟨name, rfl, wrote⟩

/-- A template that is compiled is read, compiled and written under its name. -/
theorem output_of_compileFile (stores : host.Stores directory) {path : String} {before after : σ}
    (done : compileFile host settings (some directory) path before = (none, after)) :
    ∃ name output, fileName? path = some name ∧ output? host settings path before = some output ∧
      host.write (joinPath directory name) output before = (.ok (), after) := by
  simp only [compileFile, bind, StateT.bind] at done
  cases read : readText host path before with
  | mk result middle =>
    rw [read] at done
    cases result with
    | error error => cases done
    | ok source =>
      obtain ⟨held, rfl⟩ := text?_of_readText stores.reading read
      cases compiled : compileSource settings source with
      | error error =>
        simp only [compiled] at done
        cases done
      | ok output =>
        simp only [compiled] at done
        obtain ⟨name, named, wrote⟩ := write_of_deliver done
        exact ⟨name, output, named, by simp [output?, held, compiled, Except.toOption], wrote⟩

theorem compileFiles_cons {path : String} {paths : List String} {before after : σ}
    (done : compileFiles host settings (some directory) (path :: paths) before = (none, after)) :
    ∃ middle, compileFile host settings (some directory) path before = (none, middle) ∧
      compileFiles host settings (some directory) paths middle = (none, after) := by
  simp only [compileFiles, bind, StateT.bind] at done
  cases first : compileFile host settings (some directory) path before with
  | mk result middle =>
    rw [first] at done
    cases result with
    | some failure => cases done
    | none => exact ⟨middle, rfl, done⟩

/-- What lies outside of the directory stays as it is while templates are compiled. -/
theorem read_of_compileFiles (stores : host.Stores directory) {outer : String}
    (outside : host.Outside directory outer) {content : Content} {paths : List String} {before after : σ}
    (done : compileFiles host settings (some directory) paths before = (none, after))
    (found : (host.read outer before).1 = .ok content) :
    (host.read outer after).1 = .ok content := by
  induction paths generalizing before with
  | nil =>
    cases done
    exact found
  | cons path paths ih =>
    obtain ⟨middle, first, rest⟩ := compileFiles_cons done
    obtain ⟨name, output, named, -, wrote⟩ := output_of_compileFile stores first
    exact ih rest (outside.written name output content before middle (isFileName_of_fileName? named)
      wrote found)

/-- A name that no template has stands for what it stood for. -/
theorem read_joinPath_of_compileFiles (stores : host.Stores directory) {name : String}
    (valid : IsFileName name) {paths : List String} {before after : σ}
    (done : compileFiles host settings (some directory) paths before = (none, after))
    (absent : lastNamed? name paths = none) :
    (host.read (joinPath directory name) after).1 = (host.read (joinPath directory name) before).1 := by
  induction paths generalizing before with
  | nil => cases done; rfl
  | cons path paths ih =>
    obtain ⟨middle, first, rest⟩ := compileFiles_cons done
    obtain ⟨other, output, named, -, wrote⟩ := output_of_compileFile stores first
    rw [lastNamed?_cons, Option.or_eq_none_iff] at absent
    have different : name ≠ other := by
      rintro rfl
      simp [named] at absent
    rw [ih rest absent.1]
    exact stores.others other name output before middle (isFileName_of_fileName? named) valid different
      wrote

theorem text?_eq_of_read {path : String} {before after : σ}
    (kept : ∀ content, (host.read path before).1 = .ok content → (host.read path after).1 = .ok content)
    {text : String} (held : text? host path before = some text) : text? host path after = some text := by
  unfold text? at held ⊢
  cases found : (host.read path before).1 with
  | error error => simp [found] at held
  | ok content =>
    rw [kept content found]
    simpa [found] using held

/-- Compiling templates leaves under each of their names the output of the last that has it. -/
theorem outputs_of_compileFiles (stores : host.Stores directory) {paths : List String}
    {before after : σ} (outside : ∀ path ∈ paths, host.Outside directory path)
    (done : compileFiles host settings (some directory) paths before = (none, after)) :
    (∀ path ∈ paths, ∃ name output, fileName? path = some name ∧
      output? host settings path after = some output) ∧
    ∀ name last, lastNamed? name paths = some last → ∃ output,
      output? host settings last after = some output ∧
        text? host (joinPath directory name) after = some output := by
  induction paths generalizing before with
  | nil => simp [lastNamed?]
  | cons path paths ih =>
    obtain ⟨middle, first, rest⟩ := compileFiles_cons done
    obtain ⟨name, output, named, compiled, wrote⟩ := output_of_compileFile stores first
    have valid := isFileName_of_fileName? named
    have here := outside path List.mem_cons_self
    obtain ⟨others, lasts⟩ := ih (fun path member => outside path (List.mem_cons_of_mem _ member)) rest
    have still : output? host settings path after = some output := by
      obtain ⟨source, held, result⟩ := Option.bind_eq_some_iff.mp compiled
      refine Option.bind_eq_some_iff.mpr ⟨source, text?_eq_of_read (fun content found => ?_) held, result⟩
      exact read_of_compileFiles stores here rest
        (here.written name output content before middle valid wrote found)
    refine ⟨List.forall_mem_cons.mpr ⟨⟨name, output, named, still⟩, others⟩, ?_⟩
    intro name' last found
    rw [lastNamed?_cons] at found
    cases later : lastNamed? name' paths with
    | some last' =>
      rw [later, Option.some_or] at found
      cases found
      exact lasts name' _ later
    | none =>
      rw [later, Option.none_or, Option.ite_none_right_eq_some] at found
      obtain ⟨same, last⟩ := found
      cases last
      obtain rfl := Option.some.inj (named.symm.trans same)
      refine ⟨output, still, ?_⟩
      have unchanged := read_joinPath_of_compileFiles stores valid rest later
      rw [stores.written name output before middle valid wrote] at unchanged
      simp [text?, unchanged, Content.text?]

theorem exists_lastNamed? {name path : String} {paths : List String} (member : path ∈ paths)
    (named : fileName? path = some name) :
    ∃ last ∈ paths, lastNamed? name paths = some last ∧ fileName? last = some name := by
  unfold lastNamed?
  cases found : paths.reverse.find? fun path => fileName? path = some name with
  | none =>
    have none := List.find?_eq_none.mp found path (List.mem_reverse.mpr member)
    exact absurd (decide_eq_true named) none
  | some last =>
    have fits := List.find?_some found
    exact ⟨last, List.mem_reverse.mp (List.mem_of_find?_eq_some found), rfl, of_decide_eq_true fits⟩

theorem loadSettings_eq (reading : host.OnlyReads) (options : Options) (state : σ) :
    loadSettings host options state = ((loadSettings host options state).1, state) := by
  unfold loadSettings
  cases options.project with
  | none => rfl
  | some path =>
    obtain ⟨found, text⟩ : ∃ found, readText host path state = (found, state) :=
      ⟨_, readText_eq reading path state⟩
    simp only [bind, StateT.bind]
    rw [text]
    cases found with
    | error error => rfl
    | ok source =>
      dsimp only
      cases ProjectFile.read source <;> rfl

theorem pure_apply {α : Type} (value : α) (state : σ) :
    (pure value : StateM σ α) state = (value, state) := rfl

/-- A run that succeeds loads the settings, makes the directory and compiles all templates. -/
theorem compileFiles_of_run (stores : host.Stores directory) {arguments : List String}
    {options : Options} {before after : σ}
    (asked : Request.ofArguments arguments = .compile options)
    (chosen : options.outDir = some directory)
    (done : run host arguments before = (.success, after)) :
    ∃ settings made, (loadSettings host options before).1 = .ok settings ∧
      host.makeDirectories directory before = (.ok (), made) ∧
      compileFiles host settings (some directory) options.templates made = (none, after) := by
  unfold run compile makeOutDir at done
  simp only [asked, chosen, bind, StateT.bind] at done
  rw [loadSettings_eq stores.reading] at done
  cases loaded : (loadSettings host options before).1 with
  | error failure =>
    rw [loaded] at done
    cases done
  | ok settings =>
    simp only [loaded, StateT.bind, bind] at done
    cases made : host.makeDirectories directory before with
    | mk result middle =>
      rw [made] at done
      cases result with
      | error error => cases done
      | ok _ =>
        refine ⟨settings, middle, rfl, rfl, ?_⟩
        cases compiled : compileFiles host settings (some directory) options.templates middle with
        | mk failure last =>
          simp only [pure_apply] at done
          rw [compiled] at done
          cases failure with
          | some failure => cases done
          | none =>
            cases done
            rfl

/-- After a run that succeeds each name that templates have stands for the output of the last of them.
So no output is lost exactly if templates with the same name compile to the same text. -/
theorem outputs_of_success {arguments : List String} {options : Options} {before after : σ}
    (asked : Request.ofArguments arguments = .compile options)
    (chosen : options.outDir = some directory) (stores : host.Stores directory)
    (outside : ∀ path ∈ options.templates, host.Outside directory path)
    (done : run host arguments before = (.success, after)) :
    ∃ settings, (loadSettings host options before).1 = .ok settings ∧
      (∀ path ∈ options.templates, ∀ text, text? host path before = some text →
        text? host path after = some text) ∧
      (∀ path ∈ options.templates, ∃ name last output, fileName? path = some name ∧
        lastNamed? name options.templates = some last ∧
        output? host settings last after = some output ∧
        text? host (joinPath directory name) after = some output) ∧
      ((∀ path ∈ options.templates, ∃ name output, fileName? path = some name ∧
          output? host settings path after = some output ∧
          text? host (joinPath directory name) after = some output) ↔
        ∀ first ∈ options.templates, ∀ second ∈ options.templates,
          fileName? first = fileName? second →
            output? host settings first after = output? host settings second after) := by
  obtain ⟨settings, made, loaded, there, compiled⟩ := compileFiles_of_run stores asked chosen done
  obtain ⟨each, lasts⟩ := outputs_of_compileFiles stores outside compiled
  have last : ∀ path ∈ options.templates, ∃ name last output, fileName? path = some name ∧
      fileName? last = some name ∧ last ∈ options.templates ∧
      lastNamed? name options.templates = some last ∧ output? host settings last after = some output ∧
      text? host (joinPath directory name) after = some output := by
    intro path member
    obtain ⟨name, -, named, -⟩ := each path member
    obtain ⟨last, member', found, named'⟩ := exists_lastNamed? member named
    obtain ⟨output, result, held⟩ := lasts name last found
    exact ⟨name, last, output, named, named', member', found, result, held⟩
  refine ⟨settings, loaded, fun path member text => text?_eq_of_read fun content found => ?_, ?_, ?_, ?_⟩
  · exact read_of_compileFiles stores (outside path member) compiled
      ((outside path member).made content before made there found)
  · intro path member
    obtain ⟨name, last, output, named, -, -, found, result, held⟩ := last path member
    exact ⟨name, last, output, named, found, result, held⟩
  · intro kept first member second member' same
    obtain ⟨name, output, named, result, held⟩ := kept first member
    obtain ⟨name', output', named', result', held'⟩ := kept second member'
    obtain rfl := Option.some.inj (named.symm.trans (same.trans named'))
    rw [result, result', ← held, held']
  · intro agree path member
    obtain ⟨name, last, output, named, named', member', -, result, held⟩ := last path member
    refine ⟨name, output, named, ?_, held⟩
    rw [agree path member last member' (named.trans named'.symm), result]

namespace Desk

theorem change_ok {update : FileTree → Except FileError FileTree} {before after : Desk}
    (done : change update before = (.ok (), after)) : update before.tree = .ok after.tree := by
  unfold change at done
  cases updated : update before.tree with
  | error error =>
    rw [updated] at done
    cases done
  | ok tree =>
    rw [updated] at done
    cases done
    rfl

theorem read_eq (path : String) (desk : Desk) : (Desk.host.read path desk).1 = desk.tree.read path :=
  rfl

theorem write_ok {path text : String} {before after : Desk}
    (done : Desk.host.write path text before = (.ok (), after)) :
    before.tree.write path text = .ok after.tree :=
  change_ok (show change (fun tree => tree.write path text) before = _ from done)

theorem makeDirectories_ok {path : String} {before after : Desk}
    (done : Desk.host.makeDirectories path before = (.ok (), after)) :
    before.tree.makeDirectories path = .ok after.tree :=
  change_ok (show change (fun tree => tree.makeDirectories path) before = _ from done)

variable {directory : String} (descends : Descends directory)

include descends

theorem stores : Desk.host.Stores directory where
  reading _ _ := rfl
  written name text before after named wrote := by
    rw [read_eq]
    exact FileTree.read_of_write descends named (write_ok wrote)
  others name other text before after named named' different wrote := by
    rw [read_eq, read_eq]
    exact FileTree.read_joinPath_of_write_other descends named (write_ok wrote) named' different

theorem outside {path : String} (descends' : Descends path)
    (apart : (stepNames path).dropLast ≠ stepNames directory) : Desk.host.Outside directory path where
  made content before after made found := by
    rw [read_eq] at found ⊢
    exact FileTree.read_of_makeDirectories (makeDirectories_ok made) found
  written name text content before after named wrote found := by
    rw [read_eq] at found ⊢
    exact FileTree.read_of_write_outside descends named (write_ok wrote) descends' apart found

end Desk

/-- Three templates, two of which have one name: the last of these decides what the name stands for. -/
theorem outputs_of_three_templates :
    let before : Desk := ⟨FileTree.ofFiles
      [("a/x", .text "<container></container>"), ("b/x", .text "b"), ("b/y", .text "c")], ""⟩
    let arguments := ["--out-dir", "d", "a/x", "b/x", "b/y"]
    ∃ after, run Desk.host arguments before = (.success, after) ∧
      text? Desk.host "d/x" after = some "b" ∧ text? Desk.host "d/y" after = some "c" ∧
      ¬ ∀ path ∈ ["a/x", "b/x", "b/y"], ∃ name output, fileName? path = some name ∧
        output? Desk.host (Settings.ofProject .empty) path after = some output ∧
        text? Desk.host (joinPath "d" name) after = some output := by
  intro before arguments
  let options : Options := ⟨none, false, some "d", none, ["a/x", "b/x", "b/y"]⟩
  have asked : Request.ofArguments arguments = .compile options := rfl
  have facts : (match run Desk.host arguments before with
      | (.success, after) =>
        text? Desk.host "d/x" after = some "b" && text? Desk.host "d/y" after = some "c" &&
          output? Desk.host (Settings.ofProject .empty) "a/x" after ≠
            output? Desk.host (Settings.ofProject .empty) "b/x" after
      | _ => false) = true := by decide +kernel
  have outside : ∀ path ∈ options.templates, Desk.host.Outside "d" path := by
    intro path member
    have apart : Descends path ∧ (stepNames path).dropLast ≠ stepNames "d" := by
      revert path member
      decide +kernel
    exact Desk.outside (by decide +kernel) apart.1 apart.2
  cases done : run Desk.host arguments before with
  | mk outcome after =>
    rw [done] at facts
    cases outcome with
    | success =>
      simp only [Bool.and_eq_true, decide_eq_true_eq] at facts
      obtain ⟨⟨first, second⟩, different⟩ := facts
      obtain ⟨settings, loaded, -, -, lost⟩ :=
        outputs_of_success asked rfl (Desk.stores (by decide +kernel)) outside done
      have same : .ok (Settings.ofProject .empty) = (.ok settings : Except Failure Settings) := loaded
      obtain rfl := Except.ok.inj same
      refine ⟨after, rfl, first, second, fun kept => different ?_⟩
      exact lost.mp kept "a/x" (by decide) "b/x" (by decide) (by decide +kernel)
    | failure failure => cases facts
    | misuse => cases facts
    | help => cases facts

/-- Two templates with one name: nothing in the directory holds what the first compiles to. -/
theorem not_every_output_kept :
    let tree := FileTree.ofFiles [("a/x", .text "a"), ("b/x", .text "b")]
    let after := (Desk.run tree ["--out-dir", "d", "a/x", "b/x"]).2
    (Desk.run tree ["--out-dir", "d", "a/x", "b/x"]).1.code = 0 ∧
      tree.locate "a/x" = .ok (.inside ["a", "x"]) ∧ tree.locate "b/x" = .ok (.inside ["b", "x"]) ∧
      (compileSource (Settings.ofProject .empty) "a").toOption = some "a" ∧
      after.tree.locate "d" = .ok (.inside ["d"]) ∧
      ∀ file ∈ after.tree.files, ["d"] <+: file.1 → file.2.text? = some "b" := by
  decide +kernel

end LayoutMarkup.Command
