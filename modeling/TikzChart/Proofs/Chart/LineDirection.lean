import TikzChart.Proofs.Chart.LinePlacement

/-!
The direction of line charts. Larger values are plotted no further left, as long as the padding on
both sides has room in the width of the frame; with more padding the lines are mirrored.
-/

set_option autoImplicit false

namespace TikzChart

open DrawCommand

theorem filterMap_filter_isPlotted (commands : List DrawCommand) :
    (commands.filter isPlotted).filterMap points? = plottedLines commands := by
  rw [List.filterMap_filter, plottedLines]
  congr 1
  funext command
  unfold isPlotted
  cases command.points? <;> rfl

/-- Every point of every line, next to the place where it is plotted. -/
def plottedPoints (lines : List (List (Float × Float))) (plotted : List (List Point)) :
    List ((Float × Float) × Point) := (lines.zipWith List.zip plotted).flatten

theorem plottedPoints_map (lines : List (List (Float × Float))) (place : Float × Float → Point) :
    plottedPoints lines (lines.map (List.map place)) =
      lines.flatten.map fun point => (point, place point) := by
  unfold plottedPoints
  induction lines with
  | nil => rfl
  | cons line lines ih =>
      rw [List.map_cons, List.zipWith_cons_cons, List.flatten_cons, List.flatten_cons,
        List.map_append, ih]
      congr 1
      have pairs : (line.map id).zip (line.map place) = _ := List.zip_map'
      rwa [List.map_id] at pairs

theorem mem_plottedPoints {lines : List (List (Float × Float))} {place : Float × Float → Point}
    {pair : (Float × Float) × Point} :
    pair ∈ plottedPoints lines (lines.map (List.map place)) ↔
      pair.1 ∈ lines.flatten ∧ pair.2 = place pair.1 := by
  rw [plottedPoints_map, List.mem_map]
  constructor
  · rintro ⟨point, inLines, rfl⟩
    exact ⟨inLines, rfl⟩
  · rintro ⟨inLines, isPlace⟩
    exact ⟨pair.1, inLines, Prod.ext rfl isPlace.symm⟩

namespace LineChart

variable {chart : LineChart} {config : Config} {plan : LinePlan}

def placeOf (plan : LinePlan) (point : Float × Float) : Point :=
  ⟨plan.xScale.toPlot point.1, plan.yScale.toPlot point.2⟩

theorem Planned.plottedLines_drawn (planned : chart.Planned config plan) :
    plottedLines (chart.body plan config
      ++ Legend.last .line chart.legend plan.styles config) =
        chart.lines.map (List.map (placeOf plan)) := by
  have placed (position : Nat) (line : List (Float × Float)) :
      (chart.lineAt plan.xScale plan.yScale position line).points? =
        some (line.map (placeOf plan)) := by
    unfold lineAt
    cases chart.marked <;> rfl
  rw [← filterMap_filter_isPlotted, planned.filter_drawn, filterMap_mapIdx placed]

/-- What is known of the horizontal scale of a chart whose values are within a googol. -/
structure Spanned (chart : LineChart) (config : Config) (plan : LinePlan) (low high : Float) :
    Prop where
  scale_eq : plan.xScale = chart.scaleOfX config low high
  factorFinite : (chart.scaleOfX config low high).factor.isFinite = true
  spanFinite : (high - low).isFinite = true
  isFinite : ∀ point ∈ chart.lines.flatten, point.1.isFinite = true
  spans : ∀ point ∈ chart.lines.flatten, Spans (low, high) point.1
  attained : ∃ point ∈ chart.lines.flatten, point.1 = low

theorem Planned.spanned (planned : chart.Planned config plan)
    (bounded : ∀ line ∈ chart.lines, ∀ point ∈ line, WithinGoogol point.1) :
    ∃ low high, chart.Spanned config plan low high := by
  obtain ⟨low, high, range, isX, factorFinite⟩ := planned.xScale_eq
  have allWithin : ∀ value ∈ chart.lines.flatten.map Prod.fst, WithinGoogol value := by
    intro value member
    obtain ⟨point, inLines, rfl⟩ := List.mem_map.mp member
    obtain ⟨line, isLine, inLine⟩ := List.mem_flatten.mp inLines
    exact bounded line isLine point inLine
  have allFinite : ∀ value ∈ chart.lines.flatten.map Prod.fst, value.isFinite = true :=
    fun value member => (allWithin value member).1
  exact ⟨low, high,
    { scale_eq := isX
      factorFinite := isX ▸ factorFinite
      spanFinite :=
        sub_isFinite_of_within (allWithin low range.low_mem) (allWithin high range.high_mem)
      isFinite := fun point inLines => allFinite _ (List.mem_map_of_mem inLines)
      spans := fun point inLines =>
        spans_of_range range.computed allFinite (List.mem_map_of_mem inLines)
      attained := List.mem_map.mp range.low_mem }⟩

namespace Spanned

variable {low high : Float} (spanned : chart.Spanned config plan low high)

include spanned

theorem direction {first second : Float × Float} (isFirst : first ∈ chart.lines.flatten)
    (isSecond : second ∈ chart.lines.flatten) (less : first.1 < second.1) :
    (2 * chart.padding config ≤ config.width →
      (placeOf plan first).x ≤ (placeOf plan second).x) ∧
    (config.width < 2 * chart.padding config →
      (placeOf plan second).x ≤ (placeOf plan first).x) := by
  rw [placeOf, placeOf, spanned.scale_eq]
  have firstFinite := spanned.isFinite first isFirst
  have secondFinite := spanned.isFinite second isSecond
  exact paddedScale_direction spanned.factorFinite spanned.spanFinite (spanned.spans first isFirst)
    (spanned.spans second isSecond) firstFinite secondFinite
    (le_of_lt_of_isFinite firstFinite secondFinite less)

theorem smallest_inside (nonneg : 0 ≤ config.xPadding)
    (room : 2 * chart.padding config ≤ config.width) {point : Float × Float}
    (inLines : point ∈ chart.lines.flatten)
    (smallest : ∀ other ∈ chart.lines.flatten, point.1 ≤ other.1) :
    0 ≤ (placeOf plan point).x ∧ (placeOf plan point).x ≤ config.width := by
  obtain ⟨lowPoint, isLow, same⟩ := spanned.attained
  have isFinite := spanned.isFinite point inLines
  have below := (le_iff_exactValue_le isFinite (spanned.isFinite lowPoint isLow)).mp
    (smallest lowPoint isLow)
  have paddingNonneg : 0 ≤ chart.padding config := by
    unfold padding
    split
    · exact nonneg
    · decide +kernel
  rw [placeOf, spanned.scale_eq]
  exact paddedScale_smallest_inside spanned.factorFinite spanned.spanFinite
    (spanned.spans point inLines) isFinite (same ▸ below) paddingNonneg room

end Spanned

/-- Larger values are plotted no further left if twice the padding has room in the width, and then
the smallest one is plotted inside the frame. With less room the lines are mirrored. -/
theorem lines_keep_direction {chart : LineChart} {start final : Chart}
    (accepted : chart.draw.runOn start = (.ok (), final)) (nonneg : 0 ≤ start.config.xPadding)
    (bounded : ∀ line ∈ chart.lines, ∀ point ∈ line, WithinGoogol point.1) :
    ∃ added : List DrawCommand,
      final.canvas.commands = start.canvas.commands ++ added ∧
      chart.lines.map List.length = (plottedLines added).map List.length ∧
      let points := plottedPoints chart.lines (plottedLines added)
      let padding := if chart.padded then start.config.xPadding else 0
      (2 * padding ≤ start.config.width →
        (∀ first ∈ points, ∀ second ∈ points, first.1.1 < second.1.1 →
          first.2.x ≤ second.2.x) ∧
        ∀ first ∈ points, (∀ other ∈ points, first.1.1 ≤ other.1.1) →
          0 ≤ first.2.x ∧ first.2.x ≤ start.config.width) ∧
      (start.config.width < 2 * padding →
        ∀ first ∈ points, ∀ second ∈ points, first.1.1 < second.1.1 →
          second.2.x ≤ first.2.x) := by
  obtain ⟨plan, planned, appended⟩ := planned_of_draw accepted
  obtain ⟨low, high, spanned⟩ := planned.spanned bounded
  refine ⟨_, appended, ?_, ?_⟩
  · rw [planned.plottedLines_drawn, List.map_map]
    exact List.map_congr_left fun line _ => (List.length_map _).symm
  rw [planned.plottedLines_drawn]
  simp only [mem_plottedPoints]
  refine ⟨fun room => ⟨?_, ?_⟩, ?_⟩
  · rintro first ⟨isFirst, firstPlace⟩ second ⟨isSecond, secondPlace⟩ less
    rw [firstPlace, secondPlace]
    exact (spanned.direction isFirst isSecond less).1 room
  · rintro first ⟨isFirst, firstPlace⟩ smallest
    rw [firstPlace]
    exact spanned.smallest_inside nonneg room isFirst fun other isOther =>
      smallest (other, placeOf plan other) ⟨isOther, rfl⟩
  · rintro tight first ⟨isFirst, firstPlace⟩ second ⟨isSecond, secondPlace⟩ less
    rw [firstPlace, secondPlace]
    exact (spanned.direction isFirst isSecond less).2 tight

theorem labelled_lines_run_right :
    ∃ (final : Chart) (added : List DrawCommand),
      labelledLines.draw.runOn {} = (.ok (), final) ∧ final.canvas.commands = added ∧
      ∀ first ∈ plottedPoints labelledLines.lines (plottedLines added),
        ∀ second ∈ plottedPoints labelledLines.lines (plottedLines added),
          first.1.1 < second.1.1 → first.2.x ≤ second.2.x := by
  obtain ⟨added, appended, _, roomy, _⟩ := lines_keep_direction labelledLines_accepted
    (by decide +kernel) (by decide +kernel)
  exact ⟨_, added, labelledLines_accepted, appended, (roomy (by decide +kernel)).1⟩

/-- A frame that is narrower than the padding at one side. -/
def narrowChart : Chart := { config := { width := 10 } }

/-- One line from zero to one. -/
def unitLine : LineChart :=
  { lines := [[(0, 1), (1, 2)]], legend := [], base := 0, top := 0, xTics := [], padded := true
    marked := false }

/-- In the narrow frame the smaller value is plotted at the right of the larger one, and outside. -/
theorem narrow_frame_mirrors :
    narrowChart.config.width = 10 ∧ narrowChart.config.xPadding = 15 ∧
      (∀ line ∈ unitLine.lines, ∀ point ∈ line, WithinGoogol point.1 ∧ WithinGoogol point.2) ∧
      ∃ final : Chart, unitLine.draw.runOn narrowChart = (.ok (), final) ∧
        unitLine.lines = [[(0, 1), (1, 2)]] ∧
        (plottedLines final.canvas.commands).map (List.map Point.x) = [[15, -5]] ∧
        (0 : Float) < 1 ∧ ¬(15 : Float) ≤ -5 ∧ ¬(15 : Float) ≤ 10 := by
  refine ⟨rfl, rfl, ?_, (unitLine.draw.runOn narrowChart).2, Step.runOn_of_ok ?_, rfl, ?_, ?_⟩
  · decide +kernel
  · decide +kernel
  · decide +kernel
  · decide +kernel

end LineChart

end TikzChart
