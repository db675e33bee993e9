import LayoutMarkup.Command.FilePath

/-! Files and directories below a working directory. What lies outside is a directory about which
nothing is known: no file is found there, and what is written there is not seen again. -/

namespace LayoutMarkup.Command

/-- Why a file cannot be read or written. -/
inductive FileError where
  | missing
  | exists
  | notDirectory
  | isDirectory
  | notText
  /-- Anything else that a system may report. -/
  | other (message : String)
deriving DecidableEq

def FileError.message : FileError → String
  | .missing => "No such file or directory (os error 2)"
  | .exists => "File exists (os error 17)"
  | .notDirectory => "Not a directory (os error 20)"
  | .isDirectory => "Is a directory (os error 21)"
  | .notText => "stream did not contain valid UTF-8"
  | .other message => message

/-- What a file holds: text, or bytes that need not be text. -/
inductive Content where
  | text (chars : String)
  | bytes (bytes : ByteArray)

/-- The text of a file, unless its bytes encode none. -/
def Content.text? : Content → Option String
  | .text chars => some chars
  | .bytes code => String.fromUTF8? code

/-- Where a path leads. -/
inductive Place where
  /-- Down from the working directory by these names. -/
  | inside (names : List String)
  | outside
deriving DecidableEq

structure FileTree where
  files : List (List String × Content)
  directories : List (List String)

namespace FileTree

/-- The directories above a file that lies inside. -/
def directoriesAbove (names : List String) : List (List String) :=
  (List.range (names.length - 1)).map fun depth => names.take (depth + 1)

/-- The tree that holds the given files and the directories that they need. -/
def ofFiles (files : List (String × Content)) : FileTree :=
  let files := files.map fun file => (pathNames file.1, file.2)
  ⟨files, (files.flatMap fun file => directoriesAbove file.1).eraseDups⟩

def file? (tree : FileTree) (names : List String) : Option Content :=
  (tree.files.find? fun file => file.1 = names).map Prod.snd

def isDirectory (tree : FileTree) : Place → Bool
  | .outside => true
  | .inside names => names.isEmpty || tree.directories.contains names

/-- Go on from a place by one name. -/
def enter (tree : FileTree) (place : Place) (name : String) : Except FileError Place :=
  if !tree.isDirectory place then .error .notDirectory
  else if name = "." then .ok place
  else
    match place with
    | .outside => if name = ".." then .ok .outside else .error .missing
    | .inside names =>
      if name = ".." then .ok (if names.isEmpty then .outside else .inside names.dropLast)
      else
        let next := names ++ [name]
        if tree.isDirectory (.inside next) || (tree.file? next).isSome then .ok (.inside next)
        else .error .missing

def locateFrom (tree : FileTree) : Place → List String → Except FileError Place
  | place, [] => .ok place
  | place, name :: names =>
    match tree.enter place name with
    | .error error => .error error
    | .ok place => locateFrom tree place names

/-- Where a path begins. -/
def start (path : String) : Place := if isAbsolute path then .outside else .inside []

/-- The file or directory that a path leads to. -/
def locate (tree : FileTree) (path : String) : Except FileError Place :=
  match tree.locateFrom (start path) (pathNames path) with
  | .error error => .error error
  | .ok place =>
    if endsWithSlash path && !tree.isDirectory place then .error .notDirectory else .ok place

/-- Read a file. -/
def read (tree : FileTree) (path : String) : Except FileError Content :=
  match tree.locate path with
  | .error error => .error error
  | .ok place =>
    match place with
    | .outside => .error .isDirectory
    | .inside names =>
      if tree.isDirectory (.inside names) then .error .isDirectory
      else
        match tree.file? names with
        | some content => .ok content
        | none => .error .missing

/-- Where the last of some names leads, whether or not anything is there yet. -/
def target (tree : FileTree) (begin : Place) (names : List String) : Except FileError Place :=
  match names.getLast? with
  | none => .ok begin
  | some name =>
    match tree.locateFrom begin names.dropLast with
    | .error error => .error error
    | .ok place =>
      if name = "." || name = ".." then tree.enter place name
      else if !tree.isDirectory place then .error .notDirectory
      else
        match place with
        | .outside => .ok .outside
        | .inside above => .ok (.inside (above ++ [name]))

/-- Make a single directory. -/
def makeDirectory (tree : FileTree) (begin : Place) (names : List String) :
    Except FileError FileTree :=
  match tree.target begin names with
  | .error error => .error error
  | .ok .outside => .ok tree
  | .ok (.inside names) =>
    if tree.isDirectory (.inside names) || (tree.file? names).isSome then .error .exists
    else .ok { tree with directories := tree.directories ++ [names] }

/-- The names of the directory above; a single dot at the end is no step. -/
def namesAbove (names : List String) : List String :=
  let trim := fun names : List String => (names.reverse.dropWhile (· = ".")).reverse
  trim (trim names).dropLast

/-- Make a directory and those above it that are missing. The depth bounds the number of steps up. -/
def makeDirectoriesFrom (tree : FileTree) (begin : Place) :
    Nat → List String → Except FileError FileTree
  | 0, _ => .ok tree
  | depth + 1, names =>
    if names.isEmpty then .ok tree
    else
      let settle (tree : FileTree) (error : FileError) : Except FileError FileTree :=
        match tree.locateFrom begin names with
        | .ok place => if tree.isDirectory place then .ok tree else .error error
        | .error _ => .error error
      match tree.makeDirectory begin names with
      | .ok tree => .ok tree
      | .error .missing =>
        match makeDirectoriesFrom tree begin depth (namesAbove names) with
        | .error error => .error error
        | .ok tree =>
          match tree.makeDirectory begin names with
          | .ok tree => .ok tree
          | .error error => settle tree error
      | .error error => settle tree error

def makeDirectories (tree : FileTree) (path : String) : Except FileError FileTree :=
  let names := pathNames path
  tree.makeDirectoriesFrom (start path) (names.length + 1) names

/-- Write a file, in the place of one that is there. -/
def write (tree : FileTree) (path : String) (text : String) : Except FileError FileTree :=
  match tree.target (start path) (pathNames path) with
  | .error error => .error error
  | .ok .outside => .ok tree
  | .ok (.inside names) =>
    if tree.isDirectory (.inside names) then .error .isDirectory
    else
      let others := tree.files.filter fun file => file.1 ≠ names
      .ok { tree with files := others ++ [(names, .text text)] }

end FileTree

end LayoutMarkup.Command
