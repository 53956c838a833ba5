import TikzChart.Proofs.Chart.Accepted
import TikzChart.Proofs.Layout.Direction

/-!
Where the lines of a chart run. All points and all tics of the horizontal axis are placed by the
same two scales, which are fitted to the points of all lines together.
-/

set_option autoImplicit false

namespace TikzChart

open DrawCommand

namespace LineChart

variable (chart : LineChart) (config : Config)

/-- A line at the places of its points, by marks or by a path, in the style that is numbered for it.
-/
def lineAt (xScale yScale : LinearScale Float) (position : Nat) (line : List (Float × Float)) :
    DrawCommand :=
  let points := line.map fun (x, y) => Point.mk (xScale.toPlot x) (yScale.toPlot y)
  let options := Sample.options .line position
  if chart.marked then marks points options else path points options

/-- The mark and the label of a tic of the horizontal axis. -/
def ticAt (xScale : LinearScale Float) (value : Float) : List DrawCommand :=
  [lineBy ⟨xScale.toPlot value, 0⟩ ⟨0, -config.xTics.size⟩ "",
    text ⟨xScale.toPlot value, config.xTics.shift - 3⟩ (numberText value) config.xTics.font ""]

/-- The scale of the horizontal axis, for points from `low` to `high`. -/
def scaleOfX (low high : Float) : LinearScale Float :=
  let padding := if chart.padded then config.xPadding else 0
  paddedScale low high config.width padding

/-- The scale of the vertical axis, for points from `low` to `high`. -/
def scaleOfY (low high : Float) : LinearScale Float :=
  let base := PlotNumber.minimum chart.base low
  let top := PlotNumber.maximum chart.top high
  ⟨base, top, config.height * config.ceiling / (top - base), 0⟩

variable {chart config} {plan : LinePlan}

theorem Planned.xScale_eq (planned : chart.Planned config plan) :
    ∃ low high, RangeOf (chart.lines.flatten.map Prod.fst) low high ∧
      plan.xScale = chart.scaleOfX config low high ∧ plan.xScale.factor.isFinite = true := by
  have fitted := planned.xScale
  unfold LineChart.xScale at fitted
  rw [NumericTree.range_ofRows, ← List.map_flatten] at fitted
  split at fitted
  · cases fitted
  · next low high isRange =>
      refine ⟨low, high, rangeOf_of_range isRange, ?_⟩
      split at fitted
      · next scale fits =>
          have accepted := fit_accepted fits
          rw [← Except.ok.inj fitted, accepted.scale_eq]
          exact ⟨rfl, accepted.factorFinite⟩
      · cases fitted

theorem Planned.yScale_eq (planned : chart.Planned config plan) :
    ∃ low high, RangeOf (chart.lines.flatten.map Prod.snd) low high ∧
      plan.yScale = chart.scaleOfY config low high := by
  obtain ⟨⟨low, high⟩, isRange, accepted⟩ := deriveScale_accepted planned.yScale
  rw [NumericTree.range_ofRows, ← List.map_flatten] at isRange
  exact ⟨low, high, rangeOf_of_range isRange, accepted.scale_eq⟩

/-- What is drawn for a line whose style has the given name. -/
def lineNamed (chart : LineChart) (plan : LinePlan) (line : List (Float × Float)) (name : String) :
    DrawCommand :=
  let points := place plan line
  let options := "[" ++ name ++ "]"
  if chart.marked then marks points options else path points options

theorem filter_lineCommands (position : Nat) (entry : List (Float × Float) × Style) :
    (chart.lineCommands plan position entry).filter isPlotted =
      [chart.lineNamed plan entry.1 entry.2.name] := by
  unfold lineCommands lineNamed
  cases chart.marked <;> rfl

theorem Planned.filter_lines (planned : chart.Planned config plan) :
    ((chart.lines.zip plan.styles).mapIdx (chart.lineCommands plan)).flatten.filter isPlotted =
      chart.lines.mapIdx (chart.lineAt plan.xScale plan.yScale) := by
  rw [filter_zip_of_assign planned.styles _ (fun _ line name => [chart.lineNamed plan line name])
    filter_lineCommands, flatten_mapIdx_singleton]
  simp only [lineNamed, Palette.stem, Sample.options_line]
  rfl

theorem Planned.filter_body (planned : chart.Planned config plan) :
    (chart.body plan config).filter isPlotted =
      chart.lines.mapIdx (chart.lineAt plan.xScale plan.yScale) := by
  have noTics : (Chart.yTicCommands config plan.yTics ++ Chart.xTicCommands config plan.xTics).filter
      isPlotted = [] := by
    rw [List.filter_eq_nil_iff]
    simp +contextual [Chart.yTicCommands, Chart.yTicCommandsAt, Chart.xTicCommands,
      Chart.xTicCommandsAt, or_imp, isPlotted, points?]
  rw [body, List.append_assoc, List.append_assoc, ← List.append_assoc (Chart.yTicCommands _ _),
    List.filter_append, List.filter_append, noTics, planned.filter_lines]
  rfl

theorem filter_last (labels : List String) (styles : List Style) :
    (Legend.last .line labels styles config).filter isPlotted = [] := by
  unfold Legend.last
  split
  · rfl
  · have noEntry : ((Legend.ofLabels .line labels styles).commands config.legend).filter
        isPlotted = [] := by
      rw [Legend.commands, filter_flatten_mapIdx, List.flatten_eq_nil_iff]
      intro kept member
      obtain ⟨_, _, rfl⟩ := List.mem_mapIdx.mp member
      rfl
    rw [Legend.drawn, List.filter_append, List.filter_append, noEntry]
    rfl

theorem Planned.filter_drawn (planned : chart.Planned config plan) :
    (chart.body plan config ++ Legend.last .line chart.legend plan.styles config).filter isPlotted =
      chart.lines.mapIdx (chart.lineAt plan.xScale plan.yScale) := by
  rw [List.filter_append, planned.filter_body, filter_last, List.append_nil]

/-- All lines of a chart and the tics of its horizontal axis are placed by one pair of scales. -/
theorem lines_share_their_scales {chart : LineChart} {start final : Chart}
    (accepted : chart.draw.runOn start = (.ok (), final)) :
    ∃ (added before behind : List DrawCommand) (xScale yScale : LinearScale Float)
        (lowX highX lowY highY : Float),
      final.canvas.commands = start.canvas.commands ++ added ∧
      RangeOf (chart.lines.flatten.map Prod.fst) lowX highX ∧
      RangeOf (chart.lines.flatten.map Prod.snd) lowY highY ∧
      xScale = chart.scaleOfX start.config lowX highX ∧
      yScale = chart.scaleOfY start.config lowY highY ∧
      added.filter isPlotted = chart.lines.mapIdx (chart.lineAt xScale yScale) ∧
      added = before ++ ([comment "X-Tics"] ++ chart.xTics.flatMap (ticAt start.config xScale)
        ++ [blank]) ++ behind := by
  obtain ⟨plan, planned, appended⟩ := planned_of_draw accepted
  obtain ⟨lowX, highX, rangeX, isX, _⟩ := planned.xScale_eq
  obtain ⟨lowY, highY, rangeY, isY⟩ := planned.yScale_eq
  have tics : Chart.xTicCommands start.config plan.xTics =
      [comment "X-Tics"] ++ chart.xTics.flatMap (ticAt start.config plan.xScale) ++ [blank] := by
    rw [planned.xTics, Chart.xTicCommands, TikzChart.xTics, List.flatMap_map]
    rfl
  refine ⟨_, [Chart.frame start.config] ++ Chart.yTicCommands start.config plan.yTics,
    ((chart.lines.zip plan.styles).mapIdx (chart.lineCommands plan)).flatten
      ++ Legend.last .line chart.legend plan.styles start.config,
    plan.xScale, plan.yScale, lowX, highX, lowY, highY, appended, rangeX, rangeY, isX, isY,
    planned.filter_drawn, ?_⟩
  rw [body, tics, List.append_assoc]

/-- Three lines that are named in a legend, the second one without points. -/
def labelledLines : LineChart :=
  { lines := [[(0, 1), (5, 2)], [], [(10, 3), (20, 4)]], legend := ["low", "none", "high"]
    base := 0, top := 0, xTics := [0, 10, 20], padded := true, marked := false }

theorem labelledLines_accepted :
    labelledLines.draw.runOn {} = (.ok (), (labelledLines.draw.runOn {}).2) :=
  Step.runOn_of_ok (by decide +kernel)

theorem labelled_lines_plotted :
    ∃ (final : Chart) (added : List DrawCommand),
      labelledLines.draw.runOn {} = (.ok (), final) ∧ final.canvas.commands = added ∧
      (added.filter isPlotted).length = 3 := by
  obtain ⟨added, _, _, _, _, _, _, _, _, appended, _, _, _, _, selected, _⟩ :=
    lines_share_their_scales labelledLines_accepted
  refine ⟨_, added, labelledLines_accepted, appended, ?_⟩
  rw [selected, List.length_mapIdx]
  rfl

end LineChart

end TikzChart
