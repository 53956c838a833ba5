import TikzChart.Files.OsError
import TikzChart.Files.PathName

/-!
A tree of directories and files. A place is the list of names from the root down to an entry;
the tree lists the entries by their places, and the root is always a directory. Path names are
followed one step at a time: every step but the last has to be taken in a directory that exists.
-/

set_option autoImplicit false

namespace TikzChart

abbrev Place := List String

inductive Entry where
  | directory
  | file (content : ByteArray)

instance : DecidableEq Entry
  | .directory, .directory => .isTrue rfl
  | .directory, .file _ => .isFalse Entry.noConfusion
  | .file _, .directory => .isFalse Entry.noConfusion
  | .file first, .file second =>
    if same : first.data = second.data then .isTrue (congrArg Entry.file (ByteArray.ext same))
    else .isFalse fun equal => same (congrArg ByteArray.data (Entry.file.inj equal))

structure FileTree where
  entries : List (Place × Entry) := []
deriving DecidableEq

namespace FileTree

def entry? (tree : FileTree) (place : Place) : Option Entry :=
  if place = [] then some .directory
  else (tree.entries.find? (·.1 == place)).map Prod.snd

def erase (tree : FileTree) (place : Place) : FileTree :=
  ⟨tree.entries.filter (·.1 != place)⟩

def put (tree : FileTree) (place : Place) (entry : Entry) : FileTree :=
  ⟨(tree.erase place).entries ++ [(place, entry)]⟩

def content? (tree : FileTree) (place : Place) : Option ByteArray :=
  match tree.entry? place with
  | some (.file content) => some content
  | _ => none

def maxNameSize : Nat := 255

/-- No path name is as long as this, in bytes. -/
def maxPathSize : Nat := 4096

/-- What stands under a name in a directory, if the name can be looked up there at all. -/
def lookup (tree : FileTree) (directory : Place) (name : String) : Except OsError (Option Entry) :=
  match tree.entry? directory with
  | some .directory =>
    if maxNameSize < name.utf8ByteSize then .error .nameTooLong
    else .ok (tree.entry? (directory ++ [name]))
  | some (.file _) => .error .notADirectory
  | none => .error .notFound

/-- Takes steps through directories; a step to a parent goes up, and stays at the root. -/
def walk (tree : FileTree) (start : Place) : List (List Char) → Except OsError Place
  | [] => .ok start
  | piece :: pieces =>
    if PathName.isIdle piece then tree.walk start pieces
    else if piece = ['.', '.'] then tree.walk start.dropLast pieces
    else
      match tree.lookup start (String.ofList piece) with
      | .error cause => .error cause
      | .ok (some .directory) => tree.walk (start ++ [String.ofList piece]) pieces
      | .ok (some (.file _)) => .error .notADirectory
      | .ok none => .error .notFound

/-- Where a path name leads: to a directory, by its steps alone, or to an entry of a directory; the
entry is marked when a slash after its name insists on a directory. -/
inductive Target where
  | directory (place : Place)
  | entry (directory : Place) (name : String) (slashed : Bool)
deriving DecidableEq, Repr

def target (tree : FileTree) (start : Place) (path : String) : Except OsError Target :=
  if path.isEmpty then .error .notFound
  else if path.toList.contains '\x00' then .error .nulInName
  else if maxPathSize ≤ path.utf8ByteSize then .error .nameTooLong
  else
    let parts := PathName.parts path
    let origin := if parts.rooted then [] else start
    let body := Text.dropTrailing (· == []) parts.body
    let slashed := body.length < parts.body.length
    match body.getLast? with
    | none => .ok (.directory origin)
    | some last => do
      let directory ← tree.walk origin body.dropLast
      if last = ['.'] then pure (.directory directory)
      else if last = ['.', '.'] then pure (.directory directory.dropLast)
      else pure (.entry directory (String.ofList last) slashed)

def «open» (tree : FileTree) (start : Place) (path : String) : Except OsError Entry := do
  match ← tree.target start path with
  | .directory _ => pure .directory
  | .entry directory name slashed =>
    match ← tree.lookup directory name with
    | none => .error .notFound
    | some .directory => pure .directory
    | some (.file content) => if slashed then .error .notADirectory else pure (.file content)

def read (tree : FileTree) (start : Place) (path : String) : Except OsError ByteArray := do
  match ← tree.«open» start path with
  | .directory => .error .isADirectory
  | .file content => pure content

def write (tree : FileTree) (start : Place) (path : String) (content : ByteArray) (append : Bool) :
    Except OsError FileTree := do
  match ← tree.target start path with
  | .directory _ => .error .isADirectory
  | .entry directory name slashed =>
    if slashed then .error .isADirectory
    else
      match ← tree.lookup directory name with
      | some .directory => .error .isADirectory
      | some (.file old) =>
        pure (tree.put (directory ++ [name]) (.file (if append then old ++ content else content)))
      | none => pure (tree.put (directory ++ [name]) (.file content))

def remove (tree : FileTree) (guarded : Place → Bool) (start : Place) (path : String) :
    Except OsError FileTree := do
  match ← tree.target start path with
  | .directory _ => .error .isADirectory
  | .entry directory name slashed =>
    match ← tree.lookup directory name with
    | none => .error .notFound
    | some .directory => .error .isADirectory
    | some (.file _) =>
      if slashed then .error .notADirectory
      else if guarded (directory ++ [name]) then .error .permissionDenied
      else pure (tree.erase (directory ++ [name]))

def enter (tree : FileTree) (start : Place) (path : String) : Except OsError Place := do
  match ← tree.target start path with
  | .directory place => pure place
  | .entry directory name _ =>
    match ← tree.lookup directory name with
    | some .directory => pure (directory ++ [name])
    | some (.file _) => .error .notADirectory
    | none => .error .notFound

def makeDirectories (tree : FileTree) (start : Place) : List String → Except OsError FileTree
  | [] => .ok tree
  | name :: names => do
    let place := start ++ [name]
    match ← tree.lookup start name with
    | some .directory => tree.makeDirectories place names
    | some (.file _) => .error (if names.isEmpty then .alreadyExists else .notADirectory)
    | none => (tree.put place .directory).makeDirectories place names

def filesBelow (tree : FileTree) (top : Place) : List (Place × ByteArray) :=
  tree.entries.filterMap fun (place, entry) =>
    match entry with
    | .directory => none
    | .file content =>
      if top.isPrefixOf place then some (place.drop top.length, content) else none

end FileTree

def Place.path (place : Place) : String := "/".intercalate place

end TikzChart
