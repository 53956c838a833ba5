import TikzChart.Chart.Document
import TikzChart.CommandLine.Program

/-!
The command line. The run itself is computed; all that is done here is to look up the places of the
machine that the run can ask for, to write down the files that it changed, and to print. Tools are
not started: a rendered page is asked of tools that cannot be found, and the run says so after the
document has been written.
-/

set_option autoImplicit false

namespace TikzChart

/-- Where the steps of a path name lead when every one of them is a directory. -/
def Place.reach (start : Place) (path : String) : Place :=
  (PathName.components path).foldl (fun place step =>
    match step with
    | .root => []
    | .current => place
    | .parent => place.dropLast
    | .name text => place ++ [String.ofList text]) start

/-- The places from the root down to a place, without the root. -/
def Place.down (place : Place) : List Place :=
  (List.range place.length).map fun depth => place.take (depth + 1)

/-- The path names that a run can read or write. -/
def Options.paths (options : Options) : List String :=
  let outputs := OutputPaths.ofBase options.output
  let compared := options.compare.filterMap fun argument =>
    (splitNamedPath argument).toOption.map Prod.snd
  options.table.toList ++ compared ++ [outputs.script, outputs.document, outputs.rendered]

namespace Machine

/-- The number under which an operation is refused because it met a directory. -/
def directoryCode : UInt32 := 21

/-- What stands at a place. What cannot be read counts as absent. -/
def entry? (place : Place) : IO (Option Entry) := do
  match ← (IO.FS.readBinFile ("/" ++ place.path)).toBaseIO with
  | .ok content => pure (some (.file content))
  | .error (.inappropriateType _ code _) =>
    pure (if code = directoryCode then some .directory else none)
  | .error _ => pure none

/-- The surroundings of a run, as far as the path names lead. -/
def survey (paths : List String) : IO Workspace := do
  let here := Place.reach [] (toString (← IO.currentDir))
  let mut tree : FileTree := {}
  for path in paths do
    for place in (here.reach path).down do
      if (tree.entry? place).isNone then
        if let some entry ← entry? place then tree := tree.put place entry
  return { here, tree }

/-- Writes the files that a run changed. -/
def commit (before after : Workspace) : IO Unit := do
  for (place, content) in after.tree.filesBelow [] do
    unless before.tree.content? place == some content do
      IO.FS.writeBinFile ("/" ++ place.path) content

end Machine

/-- Tells the user how a run ended, and gives its status. -/
def Outcome.deliver (outcome : Outcome) : IO UInt32 := do
  IO.print outcome.printed
  if let some report := outcome.report then IO.eprint report
  if let .usage cause := outcome.ending then
    if outcome.status ≠ 0 then IO.eprintln ("error: " ++ cause.message)
  return outcome.status.toUInt32

end TikzChart

def main (arguments : List String) : IO UInt32 := do
  let paths := match TikzChart.Options.parse arguments with
    | .ok options => options.paths
    | .error _ => []
  let before ← TikzChart.Machine.survey paths
  let (outcome, after) := TikzChart.Program.run arguments before
  TikzChart.Machine.commit before after
  outcome.deliver
