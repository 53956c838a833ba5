import TikzChart.ChartError
import TikzChart.Files.FileTree
import TikzChart.Step
import TikzChart.Text.Glyph

/-!
The surroundings of a run: the files, the directory that relative path names start from, the
tools on the search path with the status each of them exits with, and the launches so far. What
becomes of a single launch can be laid down apart from the tools, and so can the files that are not
to be removed. The tools do not touch the files.
-/

set_option autoImplicit false

namespace TikzChart

structure Launch where
  tool : String
  place : Place
  arguments : List String
deriving DecidableEq, Repr

structure Workspace where
  here : Place := []
  tree : FileTree := {}
  tools : List (String × Nat) := []
  launches : List Launch := []
  /-- What becomes of a launch, where that is not left to the tools. -/
  outcomes : Launch → Option (Except OsError Nat) := fun _ => none
  /-- The files that the operating system refuses to remove. -/
  guarded : Place → Bool := fun _ => false

abbrev Work (α : Type) := Step ChartError Workspace α

namespace Workspace

def «open» (workspace : Workspace) (path : String) : Except OsError Entry :=
  workspace.tree.«open» workspace.here path

def read (workspace : Workspace) (path : String) : Except OsError ByteArray :=
  workspace.tree.read workspace.here path

def shownContent (workspace : Workspace) (path : String) : Except OsError String :=
  (workspace.read path).map fun content => Glyph.shown (Glyph.read content)

def files (workspace : Workspace) : List (String × ByteArray) :=
  let named := (workspace.tree.filesBelow workspace.here).map fun (place, content) =>
    (place.path, content)
  named.mergeSort fun first second => decide (first.1 ≤ second.1)

def changedSince (workspace before : Workspace) : List (String × ByteArray) :=
  workspace.files.filter fun file => !before.files.contains file

/-- A place as seen from the working directory: nothing for the directory itself, and otherwise a
slash and the way down. -/
def relative (workspace : Workspace) (place : Place) : String :=
  if workspace.here.isPrefixOf place then
    String.join ((place.drop workspace.here.length).map ("/" ++ ·))
  else "/" ++ place.path

/-- The status of a tool that is left to the search path. A name with a slash is a path name, and no
file of the tree can be run; names of dots alone are directories. -/
def toolStatus (workspace : Workspace) (place : Place) (tool : String) : Except OsError Nat :=
  if tool.toList.contains '/' then
    (workspace.tree.«open» place tool).bind fun _ => .error .permissionDenied
  else match workspace.tools.lookup tool with
    | some status => .ok status
    | none =>
      if tool = "." ∨ tool = ".." then .error .permissionDenied
      else if FileTree.maxNameSize < tool.utf8ByteSize then .error .nameTooLong
      else .error .notFound

def launchStatus (workspace : Workspace) (launch : Launch) : Except OsError Nat :=
  (workspace.outcomes launch).getD (workspace.toolStatus launch.place launch.tool)

def isPassable (text : String) : Bool := !text.toList.contains '\x00'

def prepareLaunch (workspace : Workspace) (directory tool : String) (arguments : List String) :
    Except OsError (Launch × Nat) := do
  if !(directory :: tool :: arguments).all isPassable then throw .nulInLaunch
  let place ← workspace.tree.enter workspace.here directory
  let launch := ⟨tool, place, arguments⟩
  let status ← workspace.launchStatus launch
  pure (launch, status)

def record (workspace : Workspace) (launch : Launch) : Workspace :=
  { workspace with launches := workspace.launches ++ [launch] }

end Workspace

namespace Work

def writeText (path text : String) (append : Bool) : Work Unit := do
  let workspace ← get
  match workspace.tree.write workspace.here path text.toUTF8 append with
  | .ok tree => set { workspace with tree }
  | .error cause => throw (.output (.write path cause))

def tryRemove (path : String) : Work Unit := modify fun workspace =>
  match workspace.tree.remove workspace.guarded workspace.here path with
  | .ok tree => { workspace with tree }
  | .error _ => workspace

def launch (directory tool : String) (arguments : List String) : Work Unit := do
  let workspace ← get
  match workspace.prepareLaunch directory tool arguments with
  | .error cause => throw (.output (.toolLaunch tool cause))
  | .ok (launch, status) =>
    set (workspace.record launch)
    if status ≠ 0 then throw (.output (.toolFailed tool status))

end Work

end TikzChart
