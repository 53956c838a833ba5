import TikzChart.Text.Blank

/-!
Path names as texts. A name is cut at its slashes; empty pieces and single dots between them
name nothing, except that a single dot at the very front of a relative name stays visible. The
parent, the last component and its stem are found from the right, and what is left keeps its own
spelling.
-/

set_option autoImplicit false

namespace TikzChart

inductive Component where
  | root
  | current
  | parent
  | name (text : List Char)
deriving DecidableEq, Repr

namespace PathName

def pieces (path : String) : List (List Char) := Text.splitOn '/' path.toList

def isIdle (piece : List Char) : Bool := piece == [] || piece == ['.']

/-- A path name in two parts: whether it starts at the root or with a visible dot, and the pieces
after that. -/
structure Parts where
  rooted : Bool
  dotted : Bool
  body : List (List Char)
deriving DecidableEq, Repr

def parts (path : String) : Parts :=
  match pieces path with
  | [] :: first :: rest => ⟨true, false, first :: rest⟩
  | ['.'] :: rest => ⟨false, true, rest⟩
  | body => ⟨false, false, body⟩

def Parts.text (parts : Parts) : String :=
  let front : List (List Char) :=
    if parts.rooted then (if parts.body.isEmpty then [[], []] else [[]])
    else if parts.dotted then [['.']] else []
  String.ofList (Text.joinWith ['/'] (front ++ parts.body))

def component (piece : List Char) : Component :=
  if piece = ['.', '.'] then .parent else .name piece

def components (path : String) : List Component :=
  let parts := parts path
  (if parts.rooted then [.root] else if parts.dotted then [.current] else [])
    ++ (parts.body.filter (!isIdle ·)).map component

def lastPiece? (path : String) : Option (List Char) :=
  ((parts path).body.filter (!isIdle ·)).getLast?

/-- The name without its last step, if it has one. The root has no parent. -/
def parent? (path : String) : Option String :=
  let parts := parts path
  let body := Text.dropTrailing isIdle parts.body
  if body.isEmpty then
    if parts.dotted then some "" else none
  else some { parts with body := Text.dropTrailing isIdle body.dropLast : Parts }.text

/-- The last component, unless it leads to a parent directory. -/
def fileName? (path : String) : Option (List Char) :=
  match lastPiece? path with
  | some piece => if piece = ['.', '.'] then none else some piece
  | none => none

/-- A file name without its extension: what stands before the last dot, unless that is nothing. -/
def stem (fileName : List Char) : List Char :=
  let before := (fileName.reverse.dropWhile (· ≠ '.')).drop 1
  if before.isEmpty then fileName else before.reverse

def join (directory entry : String) : String :=
  if directory.isEmpty || directory.toList.getLast? == some '/' then directory ++ entry
  else directory ++ "/" ++ entry

end PathName

end TikzChart
