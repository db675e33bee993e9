import LayoutMarkup.Command.FileTree
import LayoutMarkup.Command.Request
import LayoutMarkup.Layout.Build
import LayoutMarkup.Layout.ProjectFile
import LayoutMarkup.Template.Read

/-! Compiling templates. Templates are compiled in the order of the command line up to the first
failure; each is printed, or written into the output directory under the name of its file. -/

namespace LayoutMarkup.Command

/-- What a command needs of its surroundings. -/
structure Host (m : Type → Type) where
  read : String → m (Except FileError Content)
  makeDirectories : String → m (Except FileError Unit)
  write : String → String → m (Except FileError Unit)
  print : String → m Unit

/-- Why a template cannot be compiled. -/
inductive CompileError where
  | source (fault : Fault)
  | layout (error : LayoutError)

def CompileError.message : CompileError → String
  | .source fault => fault.message
  | .layout error => error.message

/-- Why a command fails. -/
inductive Failure where
  | unreadableProject (path : String) (error : FileError)
  | invalidProject
  | noOutDir (path : String) (error : FileError)
  | unreadable (path : String) (error : FileError)
  | uncompilable (path : String) (error : CompileError)
  | nameless (path : String)
  | unwritable (path : String) (error : FileError)

namespace Failure

def summary : Failure → String
  | unreadableProject path _ => "failed to read config file " ++ path
  | invalidProject => "invalid config JSON"
  | noOutDir path _ => "failed to create " ++ path
  | unreadable path _ => "failed to read " ++ path
  | uncompilable path _ => "failed to compile " ++ path
  | nameless path => path ++ " has no file name"
  | unwritable path _ => "failed to write " ++ path

def cause? : Failure → Option String
  | unreadableProject _ error | noOutDir _ error | unreadable _ error | unwritable _ error =>
    some error.message
  | uncompilable _ error => some error.message
  | invalidProject | nameless _ => none

/-- Every line of a cause is indented. -/
def indent (text : String) : String :=
  String.ofList ((' ' :: ' ' :: ' ' :: ' ' :: text.toList).flatMap fun c =>
    if c = '\n' then ['\n', ' ', ' ', ' ', ' '] else [c])

/-- What is told about a failure. -/
def report (failure : Failure) : String :=
  match failure.cause? with
  | some cause => "Error: " ++ failure.summary ++ "\n\nCaused by:\n" ++ indent cause
  | none => "Error: " ++ failure.summary

end Failure

/-- Compile the source of a template. -/
def compileSource (settings : Settings) (source : String) : Except CompileError String :=
  match Template.read source with
  | .error fault => .error (.source fault)
  | .ok template =>
    match settings.build template with
    | (_, some error) => .error (.layout error)
    | (template, none) => .ok (template.print.getD "")

section

variable {m : Type → Type} [Monad m]

/-- Read a file of text. -/
def readText (host : Host m) (path : String) : m (Except FileError String) := do
  match ← host.read path with
  | .error error => return .error error
  | .ok content => return content.text?.elim (.error .notText) .ok

/-- The settings that the options ask for. -/
def loadSettings (host : Host m) (options : Options) : m (Except Failure Settings) := do
  let finish := fun project : Project =>
    Settings.ofProject (if options.transformAll then project.withTransformAll true else project)
  match options.project with
  | none => return .ok (finish .empty)
  | some path =>
    match ← readText host path with
    | .error error => return .error (.unreadableProject path error)
    | .ok source =>
      match ProjectFile.read source with
      | none => return .error .invalidProject
      | some project => return .ok (finish project)

/-- Hand out the text that a template was compiled to. -/
def deliver (host : Host m) (outDir : Option String) (path output : String) :
    m (Option Failure) := do
  match outDir with
  | none =>
    host.print output
    return none
  | some directory =>
    match fileName? path with
    | none => return some (.nameless path)
    | some name =>
      let target := joinPath directory name
      match ← host.write target output with
      | .error error => return some (.unwritable target error)
      | .ok _ => return none

def compileFile (host : Host m) (settings : Settings) (outDir : Option String) (path : String) :
    m (Option Failure) := do
  match ← readText host path with
  | .error error => return some (.unreadable path error)
  | .ok source =>
    match compileSource settings source with
    | .error error => return some (.uncompilable path error)
    | .ok output => deliver host outDir path output

/-- Compile one template after the other, up to the first failure. -/
def compileFiles (host : Host m) (settings : Settings) (outDir : Option String) :
    List String → m (Option Failure)
  | [] => return none
  | path :: paths => do
    match ← compileFile host settings outDir path with
    | some failure => return some failure
    | none => compileFiles host settings outDir paths

def makeOutDir (host : Host m) (outDir : Option String) : m (Option Failure) := do
  match outDir with
  | none => return none
  | some path =>
    match ← host.makeDirectories path with
    | .error error => return some (.noOutDir path error)
    | .ok _ => return none

/-- Compile the templates of a command line. -/
def compile (host : Host m) (options : Options) : m (Option Failure) := do
  match ← loadSettings host options with
  | .error failure => return some failure
  | .ok settings =>
    match ← makeOutDir host options.outDir with
    | some failure => return some failure
    | none => compileFiles host settings options.outDir options.templates

/-- How a command ends. -/
inductive Outcome where
  | success
  | failure (failure : Failure)
  | misuse
  | help

def Outcome.code : Outcome → UInt32
  | .success | .help => 0
  | .failure _ => 1
  | .misuse => 2

/-- Do what a command line asks for. -/
def run (host : Host m) (arguments : List String) : m Outcome := do
  match Request.ofArguments arguments with
  | .misuse => return .misuse
  | .help => return .help
  | .version =>
    host.print "flexi 0.1.0\n"
    return .success
  | .compile options =>
    match ← compile host options with
    | some failure => return .failure failure
    | none => return .success

end

/-- Surroundings that are a value: a tree of files, and what has been printed. -/
structure Desk where
  tree : FileTree
  printed : String

namespace Desk

/-- Make a change to the tree that may fail. -/
def change (update : FileTree → Except FileError FileTree) : StateM Desk (Except FileError Unit) :=
  fun desk =>
    match update desk.tree with
    | .ok tree => (.ok (), { desk with tree })
    | .error error => (.error error, desk)

def host : Host (StateM Desk) where
  read path := fun desk => (desk.tree.read path, desk)
  makeDirectories path := change fun tree => tree.makeDirectories path
  write path text := change fun tree => tree.write path text
  print text := fun desk => ((), { desk with printed := desk.printed ++ text })

/-- Run a command on a tree of files. -/
def run (tree : FileTree) (arguments : List String) : Outcome × Desk :=
  (Command.run host arguments).run ⟨tree, ""⟩

end Desk

end LayoutMarkup.Command
