/-! The command line. Options may stand anywhere before `--`, each at most once; everything else names
a template. -/

namespace LayoutMarkup.Command

structure Options where
  project : Option String
  transformAll : Bool
  outDir : Option String
  /-- A filter for notes, which may be any text and has no bearing on what is compiled. -/
  log : Option String
  templates : List String

namespace Options

/-- The options of an empty command line. -/
def initial : Options := ⟨none, false, none, none, []⟩

/-- Set a value that is not set yet. -/
def setOnce (value : String) : Option String → Option (Option String)
  | some _ => none
  | none => some (some value)

/-- Set a path that is not set yet; the empty text is no path. -/
def setPathOnce (path : String) (current : Option String) : Option (Option String) :=
  if path = "" then none else setOnce path current

def addTemplate (options : Options) (path : String) : Option Options :=
  if path = "" then none else some { options with templates := options.templates ++ [path] }

end Options

/-- An option that takes a value. -/
inductive Setting where
  | project
  | outDir
  | log

def Setting.set (setting : Setting) (options : Options) (value : String) : Option Options :=
  match setting with
  | .project => (Options.setPathOnce value options.project).map fun value =>
    { options with project := value }
  | .outDir => (Options.setPathOnce value options.outDir).map fun value =>
    { options with outDir := value }
  | .log => (Options.setOnce value options.log).map fun value => { options with log := value }

/-- What an argument is. -/
inductive Word where
  /-- The mark behind which all arguments name templates. -/
  | separator
  | help
  | version
  | transformAll
  /-- An option that takes a value, and the value if the argument holds it. -/
  | setting (setting : Setting) (value : Option String)
  | unknown
  | template

/-- An option without its dashes, and what stands behind an equals sign. -/
def longWord (name : List Char) (value : Option String) : Word :=
  if name = "config".toList then .setting .project value
  else if name = "out-dir".toList then .setting .outDir value
  else if name = "log".toList then .setting .log value
  else if value.isSome then .unknown
  else if name = "transform-all".toList then .transformAll
  else if name = "help".toList then .help
  else if name = "version".toList then .version
  else .unknown

/-- An option of one letter, and what stands behind the letter. -/
def shortWord (letter : Char) (rest : List Char) : Word :=
  let value :=
    match rest with
    | [] => none
    | '=' :: value => some (String.ofList value)
    | value => some (String.ofList value)
  if letter = 'c' then .setting .project value
  else if letter = 'o' then .setting .outDir value
  else if letter = 'h' then .help
  else if letter = 'V' then .version
  else .unknown

def Word.of (argument : String) : Word :=
  match argument.toList with
  | ['-', '-'] => .separator
  | '-' :: '-' :: long =>
    let name := long.takeWhile (· ≠ '=')
    let value :=
      match long.drop name.length with
      | _ :: value => some (String.ofList value)
      | [] => none
    longWord name value
  | '-' :: letter :: rest => shortWord letter rest
  | _ => .template

/-- What a command line asks for. -/
inductive Request where
  | compile (options : Options)
  | help
  | version
  /-- The command line makes no sense. -/
  | misuse

namespace Request

/-- A request for compilation needs a template. -/
def ofOptions (options : Options) : Request :=
  if options.templates.isEmpty then .misuse else .compile options

/-- All arguments name templates. -/
def readTemplates (options : Options) (arguments : List String) : Request :=
  match arguments.foldlM Options.addTemplate options with
  | some options => ofOptions options
  | none => .misuse

/-- Read arguments one after the other; the first that asks for help, or that makes no sense, decides.
The value of an option may be the next argument, unless this looks like an option itself. -/
def read (options : Options) : List String → Request
  | [] => ofOptions options
  | argument :: rest =>
    match Word.of argument with
    | .separator => readTemplates options rest
    | .help => .help
    | .version => .version
    | .unknown => .misuse
    | .transformAll =>
      if options.transformAll then .misuse else read { options with transformAll := true } rest
    | .setting setting (some value) =>
      match setting.set options value with
      | some options => read options rest
      | none => .misuse
    | .setting setting none =>
      match rest with
      | [] => .misuse
      | value :: rest =>
        match Word.of value with
        | .template =>
          match setting.set options value with
          | some options => read options rest
          | none => .misuse
        | _ => .misuse
    | .template =>
      match options.addTemplate argument with
      | some options => read options rest
      | none => .misuse

/-- What the arguments of a command line ask for. -/
def ofArguments (arguments : List String) : Request := read .initial arguments

end Request

end LayoutMarkup.Command
