import RegisterMachine.Json.Value
import RegisterMachine.Text.Quoted

/-! # The file tree

A directory holds named entries in the order of their creation, each a file or a directory. The tree
has a working path, the names from the root to the directory that operations act on. Leaving a
directory upwards always succeeds, even at the root.
-/

namespace RegisterMachine

namespace Files

/-- A file or a directory. -/
inductive Node where
  | file (content : String)
  | directory (entries : List (String × Node))

/-- Named nodes in the order of their creation. -/
abbrev Entries := List (String × Node)

end Files

/-- A tree of files with a working path. -/
structure Files where
  root : Files.Entries := []
  path : List String := []

namespace Files

/-- Why an operation on files fails. -/
inductive Error where
  | alreadyExists (name : String)
  | notFound (name : String)
  | notADirectory (name : String)
  | isADirectory (name : String)
  | invalidName (name : String)
  deriving DecidableEq, Repr

def Error.message : Error → String
  | alreadyExists name => s!"already exists: {name}"
  | notFound name => s!"no such file or directory: {name}"
  | notADirectory name => s!"not a directory: {name}"
  | isADirectory name => s!"is a directory: {name}"
  | invalidName name => s!"invalid name: {Text.quoted name}"

/-! ## Entries -/

inductive Kind where
  | directory
  | file
  deriving DecidableEq, Repr

def Node.kind : Node → Kind
  | .directory _ => .directory
  | .file _ => .file

def Kind.name : Kind → String
  | directory => "directory"
  | file => "file"

/-- A line of a directory's listing. -/
structure Item where
  name : String
  kind : Kind
  deriving DecidableEq, Repr

def Item.text (item : Item) : String :=
  match item.kind with
  | .directory => s!"[DIR] {item.name}"
  | .file => item.name

def listingJson (items : List Item) : Json.Value :=
  .array (items.map fun item =>
    .object [("name", .text item.name), ("kind", .text item.kind.name)])

/-- Puts a node under a name: in the place of the first entry of that name, or at the end. -/
def put (name : String) (node : Node) : Entries → Entries
  | [] => [(name, node)]
  | entry :: others =>
    if entry.1 = name then (name, node) :: others else entry :: put name node others

/-- Drops the first entry of a name. -/
def drop (name : String) : Entries → Entries
  | [] => []
  | entry :: others => if entry.1 = name then others else entry :: drop name others

/-! ## Paths -/

/-- The entries of the directory at a path. -/
def entriesAt : List String → Entries → Except Error Entries
  | [], entries => .ok entries
  | segment :: others, entries =>
    match entries.lookup segment with
    | some (.directory inner) => entriesAt others inner
    | some (.file _) => .error (.notADirectory segment)
    | none => .error (.notFound segment)

/-- Changes the entries of the directory at a path. -/
def changeAt (change : Entries → Except Error Entries) : List String → Entries →
    Except Error Entries
  | [], entries => change entries
  | segment :: others, entries =>
    match entries.lookup segment with
    | some (.directory inner) =>
      (changeAt change others inner).map fun changed => put segment (.directory changed) entries
    | some (.file _) => .error (.notADirectory segment)
    | none => .error (.notFound segment)

def here (files : Files) : Except Error Entries := entriesAt files.path files.root

def changeHere (files : Files) (change : Entries → Except Error Entries) : Except Error Files :=
  (changeAt change files.path files.root).map fun root => { files with root }

/-! ## Operations -/

/-- Whether an entry may have the name: it is not empty, is neither of the two names that stand for
directories, and holds no slash. -/
def isValidName (name : String) : Bool :=
  !(name == "" || name == "." || name == ".." || name.toList.contains '/')

/-- Refuses a name that no entry may have. -/
def checkName (name : String) : Except Error Unit :=
  if isValidName name then .ok () else .error (.invalidName name)

def makeDirectory (files : Files) (name : String) : Except Error Files := do
  checkName name
  files.changeHere fun entries =>
    match entries.lookup name with
    | some _ => .error (.alreadyExists name)
    | none => .ok (put name (.directory []) entries)

/-- Enters a directory, or leaves one upwards. -/
def changeDirectory (files : Files) (name : String) : Except Error Files :=
  if name = ".." then .ok { files with path := files.path.dropLast }
  else if name = "." then .ok files
  else do
    checkName name
    match (← files.here).lookup name with
    | some (.directory _) => .ok { files with path := files.path ++ [name] }
    | some (.file _) => .error (.notADirectory name)
    | none => .error (.notFound name)

def list (files : Files) : Except Error (List Item) :=
  files.here.map fun entries => entries.map fun entry => ⟨entry.1, entry.2.kind⟩

/-- Writes a file, in the place of whatever has its name. -/
def write (files : Files) (name content : String) : Except Error Files := do
  checkName name
  files.changeHere fun entries => .ok (put name (.file content) entries)

def read (files : Files) (name : String) : Except Error String := do
  match (← files.here).lookup name with
  | some (.file content) => .ok content
  | some (.directory _) => .error (.isADirectory name)
  | none => .error (.notFound name)

/-- Removes a file, or a directory with all that it holds. -/
def remove (files : Files) (name : String) : Except Error Files :=
  files.changeHere fun entries =>
    match entries.lookup name with
    | some _ => .ok (drop name entries)
    | none => .error (.notFound name)

def pathText (files : Files) : String := "/" ++ String.intercalate "/" files.path

end Files

end RegisterMachine
