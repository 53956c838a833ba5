import TikzChart.Chart.Bars
import TikzChart.Chart.Lines
import TikzChart.Chart.Save
import TikzChart.Data.DataSet
import TikzChart.Decimal.Numeral

/-!
Two small charts with fixed data: grouped bars, written as a bare picture, and marked lines,
written as a document. Both go to the directory `target/out`, which is made if need be.
-/

set_option autoImplicit false

namespace TikzChart.Gallery

/-- The directory that the examples write to. -/
def outputDirectory : List String := ["target", "out"]

def prepare : Work Unit := do
  let workspace ← get
  match workspace.tree.makeDirectories workspace.here outputDirectory with
  | .ok tree => set { workspace with tree }
  | .error cause => throw (.output (.write (Place.path outputDirectory) cause))

/-- Instructions per cycle of four programs under three configurations, relative to the first
one. -/
def barData : Except DataError (DataSet Float) :=
  DataSet.empty.insertAll
    [("Baseline", .ofList [("gcc", 1.0), ("mcf", 1.0), ("lbm", 1.0), ("milc", 1.0)]),
      ("Prefetch", .ofList [("gcc", 1.08), ("mcf", 1.31), ("lbm", 1.52), ("milc", 1.12)]),
      ("Bypass", .ofList [("gcc", 1.02), ("mcf", 1.44), ("lbm", 1.21), ("milc", 0.97)])]

def drawBars : Charting Unit := do
  let data ← Step.ofExcept (barData.mapError .data)
  let keys := data.commonKeys
  let rows ← Step.ofExcept ((data.aligned keys).mapError .data)
  Charting.configure (·.withLegendShift (-150) 0)
  BarChart.draw
    { keys, series := rows, legend := data.names, base := 0, top := 0, padding := 0.25 }
  Chart.title "Normalized IPC" {}

/-- Throughput against core count for two policies. -/
def drawLines : Charting Unit := do
  Charting.configure (·.withTicStep 1)
  LineChart.draw
    { lines := [[(1, 1), (2, 1.8), (4, 3.1), (8, 4.9)], [(1, 1.1), (2, 2), (4, 3.6), (8, 6.2)]]
      legend := ["LRU", "DRRIP"], base := 0, top := 0, xTics := [1, 2, 4, 8], padded := true
      marked := true }
  Chart.xLabel "Cores" {}
  Chart.yLabel "Throughput" {}

/-- Draws a new chart and saves it; the result is what is reported to the user. -/
def produce (drawing : Charting Unit) (save : Chart → Work String) : Work String := do
  let (outcome, chart) := drawing.runOn {}
  Step.ofExcept outcome
  prepare
  let path ← save chart
  pure ("Wrote " ++ path ++ "\n")

def bars : Work String := produce drawBars fun chart => do
  let path := "target/out/example_bars.tikz"
  chart.saveTikz path
  pure path

def lines : Work String := produce drawLines (·.saveTex "target/out/example_lines")

end TikzChart.Gallery
