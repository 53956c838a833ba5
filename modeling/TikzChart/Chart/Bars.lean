import TikzChart.Chart.Basic
import TikzChart.Layout.Bars

/-!
Grouped bar charts. Every series has one value a key, in key order. The data is checked and laid
out before anything is drawn (`BarChart.plan`); drawing then puts a white bar and a styled bar
at the same place for every value, so that patterns cover the lines behind them.
-/

set_option autoImplicit false

namespace TikzChart

/-- The data of a bar chart. The scale covers `base` and `top` besides the values; `padding` is the
share of a slot that stays empty. -/
structure BarChart where
  keys : List String
  series : List (List Float)
  legend : List String
  base : Float
  top : Float
  padding : Float
deriving DecidableEq, Repr

structure BarPlan where
  styles : List Style
  scale : LinearScale Float
  tics : List (TicMark Float)
  layout : BarLayout Float
deriving DecidableEq, Repr

namespace BarChart

def plan (chart : BarChart) (config : Config) : Except ChartError BarPlan := do
  if chart.keys.isEmpty then throw (.data (.noData .categories))
  if chart.series.isEmpty then throw (.data (.noData .series))
  let mismatched := chart.series.countP (·.length ≠ chart.keys.length)
  if 0 < mismatched then throw (.data (.seriesLengthMismatch chart.keys.length mismatched))
  Chart.checkLegend chart.legend.length chart.series.length
  let styles ← (assignBars chart.series.length).mapError .data
  let scale ← (deriveScale (.ofRows chart.series) chart.base chart.top config.height
    config.ceiling).mapError .layout
  let tics ← (yTics scale config.yTics.tics config.height config.ceiling).mapError .layout
  pure ⟨styles, scale, tics,
    BarLayout.divide config.width chart.padding chart.keys.length chart.series.length⟩

def lefts (chart : BarChart) (plan : BarPlan) (position : Nat) : List Float :=
  (List.range chart.keys.length).map (plan.layout.left position)

def bottoms (chart : BarChart) : List Float := List.replicate chart.keys.length 0

def drawSeries (chart : BarChart) (plan : BarPlan) (position : Nat) (values : List Float)
    (style : Style) : Drawing Unit := do
  let label := chart.legend[position]?.getD ""
  let lefts := chart.lefts plan position
  let heights := values.map plan.scale.toPlot
  Drawing.draw [.comment ("WHITE BACKGROUND : " ++ label)]
  Drawing.barSet lefts chart.bottoms heights plan.layout.bar "[fill=white]"
  Drawing.draw [.blank, .comment ("REAL STYLE : " ++ label)]
  Drawing.barSet lefts chart.bottoms heights plan.layout.bar ("[style=" ++ style.name ++ "]")
  Drawing.draw [.blank]

def drawAll (chart : BarChart) (plan : BarPlan) (position : Nat) :
    List (List Float × Style) → Drawing Unit
  | [] => pure ()
  | (values, style) :: rest => do
    chart.drawSeries plan position values style
    chart.drawAll plan (position + 1) rest

def keyCommand (plan : BarPlan) (config : Config) (position : Nat) (key : String) : DrawCommand :=
  let point : Point := ⟨plan.layout.middle position, config.xTics.shift⟩
  .text point key config.xTics.font "[rotate=90,left]"

def keyCommands (chart : BarChart) (plan : BarPlan) (config : Config) : List DrawCommand :=
  [.comment "X-Tics: Keys"] ++ chart.keys.mapIdx (keyCommand plan config) ++ [.blank]

def longestKey (chart : BarChart) : Nat := (chart.keys.map String.length).foldl max 0

def clearKeys (chart : BarChart) (config : Config) : Config :=
  { config with
    xLabel := { config.xLabel with yshift := -(Float.ofNat chart.longestKey * 2.5) - 5 } }

def draw (chart : BarChart) : Charting Unit := do
  let config := (← get).config
  let plan ← Step.ofExcept (chart.plan config)
  Charting.onCanvas (Chart.ensureStyles plan.styles)
  Charting.onCanvas (Drawing.draw
    ([Chart.frame config, .blank] ++ Chart.yTicCommands config plan.tics ++ [.blank]))
  Charting.onCanvas (chart.drawAll plan 0 (chart.series.zip plan.styles))
  Charting.onCanvas (Drawing.draw (chart.keyCommands plan config))
  Charting.configure chart.clearKeys
  if !chart.legend.isEmpty then
    let config := (← get).config
    Charting.onCanvas ((Legend.ofLabels .box chart.legend plan.styles).draw config)

end BarChart

end TikzChart
