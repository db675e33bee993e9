/-! Paths of files, as texts of names with slashes between them. -/

namespace LayoutMarkup.Command

/-- A text cut at its slashes. -/
def slashPieces : List Char → List (List Char)
  | [] => [[]]
  | c :: rest =>
    if c = '/' then [] :: slashPieces rest
    else
      match slashPieces rest with
      | [] => [[c]]
      | piece :: pieces => (c :: piece) :: pieces

/-- The names of a path; slashes in a row count as one. -/
def pathNames (path : String) : List String :=
  ((slashPieces path.toList).filter (· ≠ [])).map String.ofList

def isAbsolute (path : String) : Bool := path.toList.head? = some '/'

/-- Whether a path can only be one of a directory. -/
def endsWithSlash (path : String) : Bool := path.toList.getLast? = some '/'

/-- The name of the file that a path leads to; a step upwards leads to none. -/
def fileName? (path : String) : Option String :=
  ((pathNames path).filter (· ≠ ".")).getLast?.filter (· ≠ "..")

/-- The path of a file in a directory. -/
def joinPath (directory name : String) : String :=
  if endsWithSlash directory then directory ++ name else directory ++ "/" ++ name

end LayoutMarkup.Command
