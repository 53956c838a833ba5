import TikzChart.Chart.Bars
import TikzChart.Chart.Lines
import TikzChart.Chart.Save
import TikzChart.CommandLine.Arguments
import TikzChart.Data.LinePoints
import TikzChart.Data.Load
import TikzChart.Data.TableText

/-!
A whole run of the program: options are read, a table is loaded and transformed, and then either the
table is printed or a chart is drawn and saved. Nothing is written to files or printed before the
chart is laid out.
-/

set_option autoImplicit false

namespace TikzChart

inductive ProgramError where
  | noInput
  | load (cause : LoadError)
  | noSharedKeys
  | table (cause : TableError)
  | geometricMean (cause : TableError)
  | barLayout (cause : ChartError)
  | lineLayout (cause : ChartError)
  | save (cause : ChartError)
  | rendering (cause : ChartError)
deriving DecidableEq, Repr

def ProgramError.chain : ProgramError → List String
  | noInput => ["no input: pass --table FILE or one or more --compare NAME:FILE"]
  | load cause => cause.chain
  | noSharedKeys => ["the inputs share no keys"]
  | table cause => [cause.message]
  | geometricMean cause => ["pass --no-mean to skip the geometric mean", cause.message]
  | barLayout cause => "bar chart layout failed" :: cause.chain
  | lineLayout cause => "line chart layout failed" :: cause.chain
  | save cause => cause.chain
  | rendering cause => "rendering failed" :: cause.chain

namespace Report

def indentLines (first later message : String) : String :=
  first ++ String.ofList (Text.joinWith ('\n' :: later.toList) (Text.splitOn '\n' message.toList))

def numbered (number : Nat) (message : String) : String :=
  "\n" ++ indentLines ("    " ++ toString number ++ ": ") "       " message

def text : List String → String
  | [] => ""
  | [message] => "Error: " ++ message ++ "\n"
  | [message, cause] =>
    "Error: " ++ message ++ "\n\nCaused by:\n" ++ indentLines "    " "    " cause ++ "\n"
  | message :: causes =>
    "Error: " ++ message ++ "\n\nCaused by:" ++ String.join (causes.mapIdx numbered) ++ "\n"

end Report

inductive Ending where
  | done
  | usage (cause : UsageError)
  | failed (cause : ProgramError)
  /-- More decimals were asked for than can be written. -/
  | aborted
deriving DecidableEq, Repr

structure Outcome where
  ending : Ending
  printed : String := ""
deriving DecidableEq, Repr

namespace Outcome

/-- The status that the run exits with. Asking for help is no failure. -/
def status (outcome : Outcome) : Nat :=
  match outcome.ending with
  | .done => 0
  | .usage .displayHelp => 0
  | .usage .displayVersion => 0
  | .usage _ => 2
  | .failed _ => 1
  | .aborted => 101

def report (outcome : Outcome) : Option String :=
  match outcome.ending with
  | .failed cause => some (Report.text cause.chain)
  | _ => none

end Outcome

namespace Options

def gmeanKey : String := "gmean"

def ameanKey : String := "amean"

def input (options : Options) (workspace : Workspace) : Except ProgramError Table :=
  match options.table with
  | some path => (Table.ofCsv workspace path).mapError .load
  | none =>
    if options.compare.isEmpty then .error .noInput
    else do
      let inputs ← (options.compare.mapM splitNamedPath).mapError .load
      (Table.ofKeyValues workspace inputs).mapError .load

def ignoreAll (table : Table) : List String → Except TableError Table
  | [] => .ok table
  | name :: names => do ignoreAll (← table.ignore name) names

def load (options : Options) (workspace : Workspace) : Except ProgramError Table := do
  let table ← options.input workspace
  if table.keys.isEmpty then throw .noSharedKeys
  let table ← match options.normalize with
    | some baseline => (table.normalize baseline).mapError .table
    | none => pure table
  let table ← match options.sortBy with
    | some name => (table.sortBy name).mapError .table
    | none => pure table
  let table ← (ignoreAll table options.ignore).mapError .table
  let table ←
    if options.noMean then pure table
    else (table.appendGmean gmeanKey).mapError .geometricMean
  if options.amean then (table.appendAmean ameanKey).mapError .table else pure table

def legend (options : Options) (table : Table) : List String :=
  if options.noLegend then [] else table.names

/-- The step of the tics: normalized values lie around 1. -/
def chosenTicStep (options : Options) : Option Float :=
  match options.ticStep with
  | some step => some step
  | none => if options.normalize.isSome && options.ticCount.isNone then some 0.1 else none

def apply {α : Type} (change : Config → α → Config) (value : Option α) (config : Config) :
    Config :=
  match value with
  | some value => change config value
  | none => config

def config (options : Options) : Config :=
  let sized := ({} : Config).withDimensions (options.width.getD 0) (options.height.getD 0)
  let labelled := fun (config : Config) font =>
    ((config.withTitleFont font).withXLabelFont font).withYLabelFont font
  sized
    |> apply Config.withCeiling options.ceiling
    |> apply Config.withTicStep options.chosenTicStep
    |> apply Config.withTicCount options.ticCount
    |> apply (fun config shift => config.withLegendShift shift.1 shift.2) options.legendShift
    |> apply (fun config font => (config.withXTicFont font).withYTicFont font) options.ticFont
    |> apply labelled options.labelFont

def chart (options : Options) : Chart :=
  { config := options.config
    canvas := { scale := options.scale.getD 1 } }

def drawBars (options : Options) (table : Table) : Except ProgramError Chart := do
  let rows ← table.rows.mapError .table
  let bars : BarChart :=
    { keys := table.keys
      series := rows.map (·.map Binary64.toFloat)
      legend := options.legend table
      base := options.valueBase
      top := options.valueCeiling
      padding := options.keyPadding }
  let (outcome, chart) := bars.draw.runOn options.chart
  outcome.mapError .barLayout
  pure chart

def drawLines (options : Options) (table : Table) : Except ProgramError Chart := do
  let points ← (LinePoints.ofTable table options.xTicsStep).mapError .table
  let lines : LineChart :=
    { lines := points.lines.map (·.map fun (x, y) => (x.toFloat, y.toFloat))
      legend := options.legend table
      base := options.valueBase
      top := options.valueCeiling
      xTics := points.tics.map Binary64.toFloat
      padded := !options.noPadding
      marked := options.markers }
  let (outcome, chart) := lines.draw.runOn options.chart
  outcome.mapError .lineLayout
  pure chart

def drawLabels (options : Options) : Charting Unit := do
  if let some title := options.title then Chart.title title {}
  if let some label := options.xLabel then Chart.xLabel label {}
  if let some label := options.yLabel then Chart.yLabel label {}

def draw (options : Options) (table : Table) : Except ProgramError Chart := do
  let chart ← match options.kind with
    | .bars => options.drawBars table
    | .lines => options.drawLines table
  pure (options.drawLabels.runOn chart).2

def backend (options : Options) : Backend :=
  if options.pdflatex then .pdflatex "pdflatex" else .dvips "latex" "dvips" "ps2pdf"

def save (options : Options) (chart : Chart) (workspace : Workspace) :
    Except ProgramError String × Workspace :=
  match options.format with
  | .tikz =>
    let (outcome, after) := (chart.saveTikz options.output).runOn workspace
    ((outcome.map fun _ => (OutputPaths.ofBase options.output).script).mapError .save, after)
  | .tex =>
    let (outcome, after) := (chart.saveTex options.output).runOn workspace
    (outcome.mapError .save, after)
  | .pdf =>
    let (outcome, after) := (chart.savePdf options.output options.backend).runOn workspace
    (outcome.mapError .rendering, after)

/-- Prints the table. The header is out before the first number is written. -/
def print (options : Options) (table : Table) : Outcome :=
  match table.text options.round (!options.noHeader) with
  | .ok text => ⟨.done, text⟩
  | .error (.tooManyDecimals _) => ⟨.aborted, if options.noHeader then "" else table.headerText⟩
  | .error (.table cause) => ⟨.failed (.table cause), ""⟩

def run (options : Options) (workspace : Workspace) : Outcome × Workspace :=
  match options.load workspace with
  | .error cause => (⟨.failed cause, ""⟩, workspace)
  | .ok table =>
    if options.printTable then (options.print table, workspace)
    else match options.draw table with
      | .error cause => (⟨.failed cause, ""⟩, workspace)
      | .ok chart =>
        match options.save chart workspace with
        | (.error cause, after) => (⟨.failed cause, ""⟩, after)
        | (.ok path, after) => (⟨.done, "Wrote " ++ path ++ "\n"⟩, after)

end Options

namespace Program

def versionText : String := "plotgen 0.1.0\n"

def helpText : String :=
  "Lay out grouped bar and line charts as TikZ pictures\n\nUsage: plotgen [OPTIONS]\n\nOptions:\n"
  ++ String.join (Switch.names.map fun (name, switch) =>
    "      --" ++ name ++ (if switch.isFlag then "" else " <VALUE>") ++ "\n")

def run (arguments : List String) (workspace : Workspace) : Outcome × Workspace :=
  match Options.parse arguments with
  | .ok options => options.run workspace
  | .error .displayHelp => (⟨.usage .displayHelp, helpText⟩, workspace)
  | .error .displayVersion => (⟨.usage .displayVersion, versionText⟩, workspace)
  | .error cause => (⟨.usage cause, ""⟩, workspace)

end Program

end TikzChart
