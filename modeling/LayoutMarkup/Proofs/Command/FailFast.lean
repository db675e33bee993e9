import LayoutMarkup.Proofs.Command.OutDir
import LayoutMarkup.Proofs.Layout.Blindness

/-! Runs that stop at the first failure. What a template produces depends on its source and the
settings alone; a run hands out, in the order of the command line, what the templates before the first
failing one produce, and nothing else. -/

namespace LayoutMarkup.Command

variable {σ : Type}

/-- What is known of what has been printed: printing adds to it and leaves all files, and nothing else
prints. -/
structure Host.Records (host : Host (StateM σ)) (printed : σ → String) : Prop where
  reading : host.OnlyReads
  printing : ∀ text before, printed (host.print text before).2 = printed before ++ text
  files : ∀ text path before,
    (host.read path (host.print text before).2).1 = (host.read path before).1
  making : ∀ directory before, printed (host.makeDirectories directory before).2 = printed before
  writing : ∀ target text before, printed (host.write target text before).2 = printed before

/-- A path lies outside of a directory, if there is one: writing files into the directory leaves all
that reading the path gives. -/
def Host.Spares (host : Host (StateM σ)) (outDir : Option String) (path : String) : Prop :=
  ∀ directory ∈ outDir, ∀ name text before after, IsFileName name →
    host.write (joinPath directory name) text before = (.ok (), after) →
    (host.read path after).1 = (host.read path before).1

/-- A template produces an output: it holds the source of a template, whose build succeeds and is
printed, and its file has a name if the output is to be written. -/
structure Produces (host : Host (StateM σ)) (settings : Settings) (outDir : Option String) (state : σ)
    (path output : String) : Prop where
  named : outDir.isSome → (fileName? path).isSome
  compiles : ∃ source template built, text? host path state = some source ∧
    Template.read source = .ok template ∧ settings.build template = (built, none) ∧
    built.print = some output

/-- An output is handed out: it is printed, or written into the directory under its template's name. -/
inductive HandsOut (host : Host (StateM σ)) : Option String → String → String → σ → σ → Prop
  | printed (path output : String) (before : σ) :
      HandsOut host none path output before (host.print output before).2
  | written {directory path name output : String} {before after : σ}
      (named : fileName? path = some name)
      (wrote : host.write (joinPath directory name) output before = (.ok (), after)) :
      HandsOut host (some directory) path output before after

/-- The outputs of some templates are handed out in their order, and nothing else happens. -/
inductive HandsOutAll (host : Host (StateM σ)) (outDir : Option String) :
    List (String × String) → σ → σ → Prop
  | nil (state : σ) : HandsOutAll host outDir [] state state
  | cons {path output : String} {outputs : List (String × String)} {before middle after : σ}
      (first : HandsOut host outDir path output before middle)
      (rest : HandsOutAll host outDir outputs middle after) :
      HandsOutAll host outDir ((path, output) :: outputs) before after

/-- The last of some outputs whose template has a name. -/
def lastOutput? (name : String) (outputs : List (String × String)) : Option String :=
  (outputs.reverse.find? fun one => fileName? one.1 = some name).map Prod.snd

theorem lastOutput?_cons (name path output : String) (outputs : List (String × String)) :
    lastOutput? name ((path, output) :: outputs) =
      (lastOutput? name outputs).or (if fileName? path = some name then some output else none) := by
  simp only [lastOutput?, List.reverse_cons, List.find?_append, List.find?_singleton,
    decide_eq_true_eq, Option.map_or]
  split <;> rfl

/-- What a source compiles to is the print of its build. -/
theorem compileSource_eq_ok_iff {settings : Settings} {source output : String} :
    compileSource settings source = .ok output ↔
      ∃ template built, Template.read source = .ok template ∧
        settings.build template = (built, none) ∧ built.print = some output := by
  unfold compileSource
  cases read : Template.read source with
  | error fault => simp
  | ok template =>
    have tree : (settings.build template).1.IsTree :=
      Pass.isTree_runAll (Template.isTree_of_read read)
    obtain ⟨text, whole⟩ := Template.exists_print_of_isTree tree
    rcases built : settings.build template with ⟨after, _ | error⟩
    · rw [built] at whole
      simp [built, whole]
    · simp [built]

variable {host : Host (StateM σ)} {settings : Settings} {outDir : Option String} {printed : σ → String}

section

variable {path : String} {outputs : List (String × String)} {before after : σ}

theorem read_of_handsOut (records : host.Records printed) (spares : host.Spares outDir path)
    {other output : String} (handed : HandsOut host outDir other output before after) :
    (host.read path after).1 = (host.read path before).1 := by
  cases handed with
  | printed => exact records.files output path before
  | written named wrote => exact spares _ rfl _ _ _ _ (isFileName_of_fileName? named) wrote

/-- What lies outside of the directory stays as it is. -/
theorem read_of_handsOutAll (records : host.Records printed) (spares : host.Spares outDir path)
    (handed : HandsOutAll host outDir outputs before after) :
    (host.read path after).1 = (host.read path before).1 := by
  induction handed with
  | nil => rfl
  | cons first rest ih => rw [ih, read_of_handsOut records spares first]

theorem printed_of_handsOutAll (records : host.Records printed)
    (handed : HandsOutAll host none outputs before after) :
    printed after = printed before ++ String.join (outputs.map Prod.snd) := by
  induction handed with
  | nil => simp
  | cons first rest ih =>
    cases first with
    | printed path output before =>
      rw [ih, records.printing]
      simp [String.append_assoc]

section

variable {directory : String} (handed : HandsOutAll host (some directory) outputs before after)

include handed

theorem printed_of_handsOutAll_written (records : host.Records printed) :
    printed after = printed before := by
  induction handed with
  | nil => rfl
  | @cons path output outputs before middle after first rest ih =>
    cases first with
    | @written _ _ name _ _ _ named wrote =>
      have kept := records.writing (joinPath directory name) output before
      rw [wrote] at kept
      rw [ih, kept]

/-- A name of the directory stands for the last output that went there, or else for what it stood for. -/
theorem read_joinPath_of_handsOutAll (stores : host.Stores directory) {name : String}
    (valid : IsFileName name) :
    (host.read (joinPath directory name) after).1 =
      match lastOutput? name outputs with
      | some output => .ok (.text output)
      | none => (host.read (joinPath directory name) before).1 := by
  induction handed with
  | nil => rfl
  | @cons path output outputs before middle after first rest ih =>
    cases first with
    | @written _ _ other _ _ _ named wrote =>
      have valid' := isFileName_of_fileName? named
      rw [ih, lastOutput?_cons, named]
      cases lastOutput? name outputs with
      | some last => rfl
      | none =>
        by_cases same : other = name
        · subst other
          simpa using stores.written name output before middle valid wrote
        · simpa [same] using
            stores.others other name output before middle valid' valid (Ne.symm same) wrote

end

/-- What a template produces depends on what reading it gives. -/
theorem produces_congr {output : String} (same : (host.read path after).1 = (host.read path before).1) :
    Produces host settings outDir after path output ↔
      Produces host settings outDir before path output := by
  have text : text? host path after = text? host path before := by rw [text?, text?, same]
  constructor
  · rintro ⟨named, compiles⟩
    exact ⟨named, text ▸ compiles⟩
  · rintro ⟨named, compiles⟩
    exact ⟨named, text ▸ compiles⟩

/-- An output is handed out unless it is to be written and its template's file has no name. -/
theorem handsOut_of_deliver {output : String} {result : Option Failure}
    (writable : ∀ target error, result ≠ some (.unwritable target error))
    (done : deliver host outDir path output before = (result, after)) :
    (result = none ∧ (outDir.isSome → (fileName? path).isSome) ∧
        HandsOut host outDir path output before after) ∨
      (result ≠ none ∧ ¬ (outDir.isSome → (fileName? path).isSome) ∧ after = before) := by
  cases outDir with
  | none =>
    cases done
    exact .inl ⟨rfl, by simp, .printed path output before⟩
  | some directory =>
    unfold deliver at done
    cases named : fileName? path with
    | none =>
      rw [named] at done
      cases done
      exact .inr ⟨by simp, by simp, rfl⟩
    | some name =>
      simp only [named, bind, StateT.bind] at done
      rcases wrote : host.write (joinPath directory name) output before with ⟨_ | _, middle⟩
      · rw [wrote] at done
        cases done
        exact absurd rfl (writable _ _)
      · rw [wrote] at done
        cases done
        exact .inl ⟨rfl, by simp, .written named wrote⟩

/-- A template that produces an output is compiled, and the output is handed out. Any other is refused,
and nothing happens. -/
theorem produces_of_compileFile (reading : host.OnlyReads) {result : Option Failure}
    (writable : ∀ target error, result ≠ some (.unwritable target error))
    (done : compileFile host settings outDir path before = (result, after)) :
    (result = none ∧ ∃ output, Produces host settings outDir before path output ∧
        HandsOut host outDir path output before after) ∨
      (result ≠ none ∧ after = before ∧ ∀ output, ¬ Produces host settings outDir before path output) := by
  simp only [compileFile, bind, StateT.bind] at done
  rcases readText_cases reading path before with ⟨source, held, read⟩ | ⟨absent, error, read⟩
  · simp only [read] at done
    cases compiled : compileSource settings source with
    | error error =>
      simp only [compiled] at done
      cases done
      refine .inr ⟨by simp, rfl, ?_⟩
      rintro output ⟨-, source', template, built, text, compiles⟩
      obtain rfl := Option.some.inj (held.symm.trans text)
      rw [compileSource_eq_ok_iff.mpr ⟨template, built, compiles⟩] at compiled
      cases compiled
    | ok output =>
      simp only [compiled] at done
      obtain ⟨template, built, compiles⟩ := compileSource_eq_ok_iff.mp compiled
      rcases handsOut_of_deliver writable done with ⟨accepted, named, handed⟩ | ⟨refused, nameless, rfl⟩
      · exact .inl ⟨accepted, output, ⟨named, source, template, built, held, compiles⟩, handed⟩
      · exact .inr ⟨refused, rfl, fun _ produces => nameless produces.named⟩
  · simp only [read] at done
    cases done
    refine .inr ⟨by simp, rfl, ?_⟩
    rintro output ⟨-, source, -, -, text, -⟩
    rw [absent] at text
    cases text

/-- A run through some templates hands out what those before the first failing one produce. -/
theorem handsOutAll_of_compileFiles (records : host.Records printed) {paths : List String}
    (spares : ∀ path ∈ paths, host.Spares outDir path) {result : Option Failure}
    (writable : ∀ target error, result ≠ some (.unwritable target error))
    (done : compileFiles host settings outDir paths before = (result, after)) :
    ∃ outputs rest, paths = outputs.map Prod.fst ++ rest ∧
      (∀ one ∈ outputs, Produces host settings outDir before one.1 one.2) ∧
      (∀ path ∈ rest.head?, ∀ output, ¬ Produces host settings outDir before path output) ∧
      (result = none ↔ rest = []) ∧ HandsOutAll host outDir outputs before after := by
  induction paths generalizing before with
  | nil =>
    cases done
    exact ⟨[], [], rfl, by simp, by simp, by simp, .nil _⟩
  | cons path paths ih =>
    simp only [compileFiles, bind, StateT.bind] at done
    rcases first : compileFile host settings outDir path before with ⟨own, middle⟩
    rw [first] at done
    cases own with
    | some failure =>
      cases done
      rcases produces_of_compileFile records.reading writable first with
        ⟨accepted, -⟩ | ⟨-, rfl, barren⟩
      · cases accepted
      · exact ⟨[], path :: paths, rfl, by simp, by simpa using barren, by simp, .nil _⟩
    | none =>
      rcases produces_of_compileFile records.reading (by simp) first with
        ⟨-, output, produces, handed⟩ | ⟨refused, -⟩
      · have later := fun path member => spares path (List.mem_cons_of_mem _ member)
        obtain ⟨outputs, rest, rfl, each, stopped, ended, onward⟩ := ih later done
        -- the later templates are read behind the first output, but hold what they held in front of it
        have same (path : String) (member : path ∈ outputs.map Prod.fst ++ rest) (output : String) :
            Produces host settings outDir middle path output ↔
              Produces host settings outDir before path output :=
          produces_congr (read_of_handsOut records (later path member) handed)
        refine ⟨(path, output) :: outputs, rest, rfl, ?_, ?_, ended, .cons handed onward⟩
        · refine List.forall_mem_cons.mpr ⟨produces, fun one member => ?_⟩
          have listed : one.1 ∈ outputs.map Prod.fst ++ rest :=
            List.mem_append_left rest (List.mem_map_of_mem member)
          exact (same one.1 listed one.2).mp (each one member)
        · intro last member output produces
          have listed := List.mem_append_right (outputs.map Prod.fst) (List.mem_of_head? member)
          exact stopped last member output ((same last listed output).mpr produces)
      · exact absurd rfl refused

end

/-- A run with settings and a directory compiles its templates and ends as that does. -/
theorem run_eq_compileFiles (reading : host.OnlyReads) {arguments : List String} {options : Options}
    {before made : σ} (asked : Request.ofArguments arguments = .compile options)
    (loaded : (loadSettings host options before).1 = .ok settings)
    (opened : makeOutDir host options.outDir before = (none, made)) :
    run host arguments before =
      ((compileFiles host settings options.outDir options.templates made).1.elim .success .failure,
        (compileFiles host settings options.outDir options.templates made).2) := by
  simp only [run, compile, asked, bind, StateT.bind]
  rw [loadSettings_eq reading, loaded]
  simp only [StateT.bind, bind]
  rw [opened]
  dsimp only
  rcases compileFiles host settings options.outDir options.templates made with ⟨_ | failure, after⟩
  · rfl
  · rfl

theorem printed_of_makeOutDir (records : host.Records printed) {before made : σ}
    (opened : makeOutDir host outDir before = (none, made)) : printed made = printed before := by
  cases outDir with
  | none =>
    cases opened
    rfl
  | some directory =>
    have kept := records.making directory before
    simp only [makeOutDir, bind, StateT.bind] at opened
    rcases there : host.makeDirectories directory before with ⟨_ | _, middle⟩ <;>
      rw [there] at opened kept <;> cases opened
    exact kept

namespace Desk

theorem records : Desk.host.Records Desk.printed where
  reading _ _ := rfl
  printing _ _ := rfl
  files _ _ _ := rfl
  making directory before := by
    show (change _ before).2.printed = _
    unfold change
    split <;> rfl
  writing target text before := by
    show (change _ before).2.printed = _
    unfold change
    split <;> rfl

theorem spares {outDir : Option String} {path : String} (descends : Descends path)
    (apart : ∀ directory ∈ outDir, Descends directory ∧ ¬ stepNames directory <+: stepNames path) :
    Desk.host.Spares outDir path := by
  intro directory chosen name text before after named wrote
  obtain ⟨descends', free⟩ := apart directory chosen
  rw [read_eq, read_eq]
  exact FileTree.read_of_write_apart descends' named (write_ok wrote) descends free

end Desk

/-- A run with settings that load, and with a directory that can be made and written to, hands out what
the templates before the first one produce that produces nothing, in the order of the command line, and
does nothing else; it fails exactly if there is such a template. Without a directory the outputs are
printed one behind the other. With one nothing is printed, and each of its names stands for the last
output that went there or for what it stood for. -/
theorem run_stops_at_first_failure {arguments : List String} {options : Options} {outcome : Outcome}
    {before made after : σ} (records : host.Records printed)
    (asked : Request.ofArguments arguments = .compile options)
    (loaded : (loadSettings host options before).1 = .ok settings)
    (opened : makeOutDir host options.outDir before = (none, made))
    (stores : ∀ directory ∈ options.outDir, host.Stores directory)
    (spares : ∀ path ∈ options.templates, host.Spares options.outDir path)
    (done : run host arguments before = (outcome, after))
    (writable : ∀ target error, outcome ≠ .failure (.unwritable target error)) :
    ∃ outputs rest, options.templates = outputs.map Prod.fst ++ rest ∧
      (∀ one ∈ outputs, Produces host settings options.outDir made one.1 one.2) ∧
      (∀ path ∈ rest.head?, ∀ output, ¬ Produces host settings options.outDir made path output) ∧
      (outcome.code ≠ 0 ↔ ∃ path ∈ options.templates,
        ∀ output, ¬ Produces host settings options.outDir made path output) ∧
      HandsOutAll host options.outDir outputs made after ∧
      (∀ path ∈ options.templates, ∀ output, Produces host settings options.outDir after path output ↔
        Produces host settings options.outDir made path output) ∧
      (options.outDir = none →
        printed after = printed before ++ String.join (outputs.map Prod.snd)) ∧
      ∀ directory ∈ options.outDir, printed after = printed before ∧
        ∀ name, IsFileName name →
          (host.read (joinPath directory name) after).1 =
            match lastOutput? name outputs with
            | some output => .ok (.text output)
            | none => (host.read (joinPath directory name) made).1 := by
  rw [run_eq_compileFiles records.reading asked loaded opened] at done
  rcases compiled : compileFiles host settings options.outDir options.templates made with ⟨result, last⟩
  rw [compiled] at done
  cases done
  have writable' : ∀ target error, result ≠ some (.unwritable target error) := by
    rintro target error rfl
    exact writable target error rfl
  obtain ⟨outputs, rest, split, each, stopped, ended, handed⟩ :=
    handsOutAll_of_compileFiles records spares writable' compiled
  have unprinted := printed_of_makeOutDir records opened
  have failing : rest ≠ [] ↔ ∃ path ∈ options.templates,
      ∀ output, ¬ Produces host settings options.outDir made path output := by
    rw [split]
    constructor
    · intro more
      obtain ⟨path, later, rfl⟩ := List.exists_cons_of_ne_nil more
      exact ⟨path, List.mem_append_right _ List.mem_cons_self, stopped path rfl⟩
    · rintro ⟨path, member, barren⟩ rfl
      rw [List.append_nil] at member
      obtain ⟨one, listed, rfl⟩ := List.mem_map.mp member
      exact barren one.2 (each one listed)
  refine ⟨outputs, rest, split, each, stopped, ?_, handed, ?_, ?_, ?_⟩
  · rw [← failing, ne_eq, ne_eq, ← ended]
    cases result <;> simp [Outcome.code]
  · intro path member output
    exact produces_congr (read_of_handsOutAll records (spares path member) handed)
  · intro none
    rw [none] at handed
    rw [printed_of_handsOutAll records handed, unprinted]
  · intro directory chosen
    rw [Option.mem_def.mp chosen] at handed
    refine ⟨(printed_of_handsOutAll_written handed records).trans unprinted, ?_⟩
    intro name valid
    exact read_joinPath_of_handsOutAll handed (stores directory chosen) valid

/-- Four templates, two of one name in front of one that is never closed: the name stands for the second
output, and the last template is not compiled. -/
theorem run_stops_at_unclosed_box :
    let before : Desk := ⟨FileTree.ofFiles
      [("a/x", .text "a"), ("b/x", .text "b"), ("c/y", .text "<box>"), ("d/z", .text "d")], ""⟩
    let settings := Settings.ofProject .empty
    let templates := ["a/x", "b/x", "c/y", "d/z"]
    ∃ made outcome after outputs rest,
      makeOutDir Desk.host (some "o") before = (none, made) ∧
      run Desk.host ("--out-dir" :: "o" :: templates) before = (outcome, after) ∧
      text? Desk.host "o/x" after = some "b" ∧ text? Desk.host "o/z" after = none ∧
      templates = outputs.map Prod.fst ++ rest ∧
      (∃ path ∈ templates, ∀ output, ¬ Produces Desk.host settings (some "o") made path output) ∧
      HandsOutAll Desk.host (some "o") outputs made after ∧ after.printed = "" := by
  intro before settings templates
  let options : Options := ⟨none, false, some "o", none, templates⟩
  have asked : Request.ofArguments ("--out-dir" :: "o" :: templates) = .compile options := rfl
  have facts : (makeOutDir Desk.host (some "o") before).1.isNone = true ∧
      (match run Desk.host ("--out-dir" :: "o" :: templates) before with
        | (.failure (.uncompilable _ _), after) =>
          text? Desk.host "o/x" after = some "b" && text? Desk.host "o/z" after = none
        | _ => false) = true := by decide +kernel
  obtain ⟨made, held⟩ := facts
  have opened : makeOutDir Desk.host options.outDir before =
      (none, (makeOutDir Desk.host (some "o") before).2) :=
    Prod.ext (Option.isNone_iff_eq_none.mp made) rfl
  have stores : ∀ directory ∈ options.outDir, Desk.host.Stores directory := by
    rintro directory ⟨⟩
    exact Desk.stores (by decide +kernel)
  have spares : ∀ path ∈ options.templates, Desk.host.Spares options.outDir path := by
    intro path member
    have apart : Descends path ∧ Descends "o" ∧ ¬ stepNames "o" <+: stepNames path := by
      revert path member
      decide +kernel
    apply Desk.spares apart.1
    rintro directory ⟨⟩
    exact apart.2
  split at held
  · rename_i path error after done
    simp only [Bool.and_eq_true, decide_eq_true_eq] at held
    obtain ⟨outputs, rest, split, -, -, failing, handed, -, -, written⟩ :=
      run_stops_at_first_failure Desk.records asked rfl opened stores spares done (by simp)
    exact ⟨_, _, after, outputs, rest, opened, done, held.1, held.2, split,
      failing.mp (by simp [Outcome.code]), handed, (written "o" rfl).1⟩
  · cases held

end LayoutMarkup.Command
