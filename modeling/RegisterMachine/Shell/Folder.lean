import RegisterMachine.Text.Blank

/-! # Files beside the shell

The options of the shell name files by path. A path is walked segment by segment, from the root when
it begins with a slash and from the working directory otherwise. Every segment has to start in a
directory, so nothing but a directory's path may end with a slash.
-/

namespace RegisterMachine.Shell

inductive FileError where
  | notFound
  | notADirectory
  | isADirectory
  | nameTooLong
  | permissionDenied
  | notText
  | other (reason : String)
  deriving DecidableEq, Repr

/-- The error in words, with the number that a system gives it. -/
def FileError.message : FileError → String
  | notFound => "No such file or directory (os error 2)"
  | notADirectory => "Not a directory (os error 20)"
  | isADirectory => "Is a directory (os error 21)"
  | nameTooLong => "File name too long (os error 36)"
  | permissionDenied => "Permission denied (os error 13)"
  | notText => "stream did not contain valid UTF-8"
  | other reason => reason

/-- A place among the files, as the names that lead to it from the root. -/
abbrev Location := List String

/-- What reading a file gives. -/
inductive Content where
  /-- A text of its own. -/
  | text (text : String)
  /-- All that is left of the session's input. -/
  | input
  deriving DecidableEq, Repr

/-- The files that a session can read. -/
structure Folder where
  /-- The files by their places, all different. -/
  files : List (Location × Content)
  /-- Directories that there are whatever they hold. -/
  directories : List Location
  /-- The directory that paths lead from. -/
  working : Location

namespace Folder

/-! ## Places -/

/-- Whether a directory is at a place: every place above a file is one. -/
def isDirectory (folder : Folder) (place : Location) : Bool :=
  (folder.working :: folder.directories ++ folder.files.map fun file => file.1.dropLast).any
    place.isPrefixOf

def file? (folder : Folder) (place : Location) : Option Content := folder.files.lookup place

def holds (folder : Folder) (place : Location) : Bool :=
  folder.isDirectory place || (folder.file? place).isSome

/-! ## Paths -/

/-- The most bytes that a name may have. -/
def longestName : Nat := 255

/-- The most bytes that a path may have. -/
def longestPath : Nat := 4095

/-- The segments of a path, some of them empty. -/
def segments (path : String) : List String :=
  (Text.pieces (· == '/') path.toList).map String.ofList

/-- Follows one segment of a path from a place. -/
def enter (folder : Folder) (place : Location) (segment : String) : Except FileError Location :=
  let inner := place ++ [segment]
  if !folder.isDirectory place then .error .notADirectory
  else if segment == "" || segment == "." then .ok place
  else if segment == ".." then .ok place.dropLast
  else if longestName < segment.utf8ByteSize then .error .nameTooLong
  else if folder.holds inner then .ok inner
  else .error .notFound

/-- The place that a path starts from. -/
def start (folder : Folder) (path : String) : Location :=
  if path.toList.head? = some '/' then [] else folder.working

/-- The content of the file that a path leads to. -/
def find (folder : Folder) (path : String) : Except FileError Content :=
  if path == "" then .error .notFound
  else if longestPath < path.utf8ByteSize then .error .nameTooLong
  else do
    let place ← (segments path).foldlM folder.enter (folder.start path)
    match folder.file? place with
    | some content => .ok content
    | none => .error .isADirectory

/-- Reads a file, which may use up the session's input. -/
def readText (folder : Folder) (path : String) : StateM String (Except FileError String) :=
  match folder.find path with
  | .ok (.text text) => pure (.ok text)
  | .ok .input => modifyGet fun input => (.ok input, "")
  | .error error => pure (.error error)

/-! ## A working directory -/

/-- The directories that are found at the root. -/
def atRoot : List String :=
  ["bin", "boot", "dev", "etc", "home", "lib", "lib64", "media", "mnt", "opt", "proc", "root",
    "run", "sbin", "srv", "sys", "tmp", "usr", "var"]

/-- Named texts in a working directory of their own, on a system where `/dev/null` is empty and
`/dev/stdin` is the session's input. -/
def ofTexts (texts : List (String × String)) : Folder :=
  let working := ["tmp", "work"]
  { files := [(["dev", "null"], .text ""), (["dev", "stdin"], .input)] ++
      texts.map fun text => (working ++ segments text.1, .text text.2)
    directories := atRoot.map fun name => [name]
    working }

end Folder

end RegisterMachine.Shell
