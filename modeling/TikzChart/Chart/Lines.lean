import TikzChart.Chart.Basic

/-!
Line charts. All lines of a chart share one horizontal and one vertical scale. The data is
checked and laid out before anything is drawn (`LineChart.plan`).
-/

set_option autoImplicit false

namespace TikzChart

/-- The data of a line chart. The vertical scale covers `base` and `top` besides the values;
`padded` keeps the lines away from the left and right edges, and `marked` draws points in place
of lines. -/
structure LineChart where
  lines : List (List (Float × Float))
  legend : List String
  base : Float
  top : Float
  xTics : List Float
  padded : Bool
  marked : Bool
deriving DecidableEq, Repr

structure LinePlan where
  styles : List Style
  xScale : LinearScale Float
  yScale : LinearScale Float
  xTics : List (TicMark Float)
  yTics : List (TicMark Float)
deriving DecidableEq, Repr

namespace LineChart

def padding (chart : LineChart) (config : Config) : Float :=
  if chart.padded then config.xPadding else 0

def xScale (chart : LineChart) (config : Config) : Except ChartError (LinearScale Float) :=
  match (NumericTree.ofRows (chart.lines.map (·.map Prod.fst))).range with
  | none => .error (.data (.noData .points))
  | some (low, high) =>
    match LinearScale.fit low high (config.width - 2 * chart.padding config) with
    | .ok scale => .ok (scale.withOffset (chart.padding config))
    | .error cause => .error (.layout cause)

def plan (chart : LineChart) (config : Config) : Except ChartError LinePlan := do
  if chart.lines.isEmpty then throw (.data (.noData .lines))
  Chart.checkLegend chart.legend.length chart.lines.length
  let styles ← (assignLines chart.lines.length).mapError .data
  let ys := NumericTree.ofRows (chart.lines.map (·.map Prod.snd))
  let yScale ← (deriveScale ys chart.base chart.top config.height config.ceiling).mapError .layout
  let xScale ← chart.xScale config
  let tics ← (yTics yScale config.yTics.tics config.height config.ceiling).mapError .layout
  pure ⟨styles, xScale, yScale, TikzChart.xTics xScale chart.xTics, tics⟩

def place (plan : LinePlan) (line : List (Float × Float)) : List Point :=
  line.map fun (x, y) => ⟨plan.xScale.toPlot x, plan.yScale.toPlot y⟩

def lineCommands (chart : LineChart) (plan : LinePlan) (position : Nat)
    (line : List (Float × Float) × Style) : List DrawCommand :=
  let points := place plan line.1
  let options := "[" ++ line.2.name ++ "]"
  [.comment ("Line: " ++ chart.legend[position]?.getD ""),
    if chart.marked then .marks points options else .path points options, .blank]

def draw (chart : LineChart) : Charting Unit := do
  let config := (← get).config
  let plan ← Step.ofExcept (chart.plan config)
  Charting.onCanvas (Chart.ensureStyles plan.styles)
  Charting.onCanvas (Drawing.draw
    ([Chart.frame config] ++ Chart.yTicCommands config plan.yTics
      ++ Chart.xTicCommands config plan.xTics))
  Charting.onCanvas (Drawing.draw
    ((chart.lines.zip plan.styles).mapIdx (chart.lineCommands plan)).flatten)
  if !chart.legend.isEmpty then
    Charting.onCanvas ((Legend.ofLabels .line chart.legend plan.styles).draw config)

end LineChart

end TikzChart
