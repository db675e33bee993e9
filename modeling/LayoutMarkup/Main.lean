import LayoutMarkup.Command.Compile

/-! The command as a program that works on the files of the machine. -/

namespace LayoutMarkup.Command

/-- A failure of the machine as one of a file. The code of the machine is negated by some calls. -/
def fileErrorOf (error : IO.Error) : FileError :=
  match error with
  | .noFileOrDirectory .. => .missing
  | .alreadyExists .. => .exists
  | .inappropriateType _ code _ => if code = 20 || code = 0 - 20 then .notDirectory else .isDirectory
  | error => .other (toString error)

def attempt {α : Type} (action : IO α) : IO (Except FileError α) := do
  try
    return .ok (← action)
  catch error =>
    return .error (fileErrorOf error)

def machineHost : Host IO where
  read path := attempt (Content.bytes <$> IO.FS.readBinFile path)
  makeDirectories path := attempt (IO.FS.createDirAll path)
  write path text := attempt (IO.FS.writeFile path text)
  print text := IO.print text

def usage : String :=
  "Usage: flexi [OPTIONS] <TEMPLATE>...\n\n" ++
  "Options:\n" ++
  "  -c, --config <FILE>   project configuration (JSON)\n" ++
  "      --transform-all   convert layout attributes on every element\n" ++
  "  -o, --out-dir <DIR>   write compiled templates here\n" ++
  "      --log <FILTER>    log filter\n" ++
  "  -h, --help            show this text\n" ++
  "  -V, --version         show the version"

/-- Run a command on the machine and tell how it ended. -/
def runOnMachine (arguments : List String) : IO UInt32 := do
  let outcome ← run machineHost arguments
  match outcome with
  | .success => pure ()
  | .help => IO.println usage
  | .misuse => IO.eprintln usage
  | .failure failure => IO.eprintln failure.report
  return outcome.code

end LayoutMarkup.Command

def main (arguments : List String) : IO UInt32 :=
  LayoutMarkup.Command.runOnMachine arguments
