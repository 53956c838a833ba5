import Mathlib.Control.Monad.Basic
import TikzChart.Proofs.Chart.Bars
import TikzChart.Proofs.Chart.Lines

/-!
Refused charts. Data that cannot be drawn is refused with one of a few causes, and a refusal leaves
the chart exactly as it was. The steps that could still fail while a chart is being drawn, once a
style or a command has been added, never do.
-/

set_option autoImplicit false

namespace TikzChart

/-- The causes for which a chart is refused. -/
def ChartError.IsRefusal : ChartError → Prop
  | .data (.noData _) => True
  | .data (.seriesLengthMismatch _ _) => True
  | .data (.legendCountMismatch _ _) => True
  | .data (.insufficientStyles _ _) => True
  | .data (.duplicateStyle _) => True
  | .layout _ => True
  | _ => False

/-- The causes for which a plan is refused, before the style table is asked. -/
def ChartError.IsPlanRefusal (cause : ChartError) : Prop :=
  cause.IsRefusal ∧ ∀ name, cause ≠ .data (.duplicateStyle name)

/-- The drawing succeeds whatever the canvas is. -/
def Drawing.NeverFails (drawing : Drawing Unit) : Prop :=
  ∀ canvas : Canvas, (drawing.runOn canvas).1 = .ok ()

theorem Drawing.Appends.neverFails {drawing : Drawing Unit} {commands : List DrawCommand}
    (appends : drawing.Appends commands) : drawing.NeverFails := by
  intro canvas
  rw [appends canvas]

theorem Chart.defineMissing_neverFails (styles : List Style) :
    (Chart.defineMissing styles).NeverFails := by
  intro canvas
  rw [Chart.runOn_defineMissing]

/-! ### The causes -/

/-- The causes that are found before anything is laid out. -/
def ChartError.IsDataRefusal (cause : ChartError) : Prop :=
  cause.IsPlanRefusal ∧ ∀ found, cause ≠ .layout found

theorem Chart.checkLegend_refusal {labels series : Nat} {cause : ChartError}
    (failed : Chart.checkLegend labels series = .error cause) : cause.IsDataRefusal := by
  unfold Chart.checkLegend at failed
  split at failed
  · cases failed
    exact ⟨⟨trivial, nofun⟩, nofun⟩
  · cases failed

theorem Palette.assign_refusal {palette : Palette} {count : Nat} {cause : ChartError}
    (failed : (palette.assign count).mapError ChartError.data = .error cause) :
    cause.IsDataRefusal := by
  obtain ⟨found, assigned, renamed⟩ := Outcome.mapError_eq_error_iff.mp failed
  unfold Palette.assign at assigned
  split at assigned
  · cases assigned
    cases renamed
    exact ⟨⟨trivial, nofun⟩, nofun⟩
  · cases assigned

theorem LineChart.xScale_error_cases {chart : LineChart} {config : Config} {cause : ChartError}
    (failed : chart.xScale config = .error cause) :
    cause.IsDataRefusal ∨ ∃ found low high extent,
      cause = .layout found ∧ LinearScale.fit low high extent = .error found := by
  unfold LineChart.xScale at failed
  split at failed
  · cases failed
    exact .inl ⟨⟨trivial, nofun⟩, nofun⟩
  · split at failed
    · cases failed
    · next fitted =>
        cases failed
        exact .inr ⟨_, _, _, _, rfl, fitted⟩

/-- A plan that is refused has wrong data, no scale, or too many tics. -/
theorem BarChart.plan_error_cases {chart : BarChart} {config : Config} {cause : ChartError}
    (failed : chart.plan config = .error cause) :
    cause.IsDataRefusal ∨ ∃ found, cause = .layout found ∧
      (deriveScale (.ofRows chart.series) chart.base chart.top config.height config.ceiling =
          .error found ∨
        ∃ scale, yTics scale config.yTics.tics config.height config.ceiling = .error found) := by
  unfold BarChart.plan at failed
  simp only [Outcome.unless_eq_error_iff, Outcome.bind_eq_error_iff] at failed
  rcases failed with ⟨_, same⟩ | ⟨_, ⟨_, same⟩ | ⟨_, ⟨_, same⟩ | ⟨_, legend | ⟨_, _, assigned |
    ⟨_, _, derived | ⟨scale, _, resolved | ⟨_, _, impossible⟩⟩⟩⟩⟩⟩⟩
  · cases same
    exact .inl ⟨⟨trivial, nofun⟩, nofun⟩
  · cases same
    exact .inl ⟨⟨trivial, nofun⟩, nofun⟩
  · cases same
    exact .inl ⟨⟨trivial, nofun⟩, nofun⟩
  · exact .inl (Chart.checkLegend_refusal legend)
  · exact .inl (Palette.assign_refusal assigned)
  · obtain ⟨found, unscaled, rfl⟩ := Outcome.mapError_eq_error_iff.mp derived
    exact .inr ⟨found, rfl, .inl unscaled⟩
  · obtain ⟨found, refused, rfl⟩ := Outcome.mapError_eq_error_iff.mp resolved
    exact .inr ⟨found, rfl, .inr ⟨scale, refused⟩⟩
  · cases impossible

theorem LineChart.plan_error_cases {chart : LineChart} {config : Config} {cause : ChartError}
    (failed : chart.plan config = .error cause) :
    cause.IsDataRefusal ∨ ∃ found, cause = .layout found ∧
      (deriveScale (.ofRows (chart.lines.map (·.map Prod.snd))) chart.base chart.top config.height
          config.ceiling = .error found ∨
        (∃ low high extent, LinearScale.fit low high extent = .error found) ∨
        ∃ scale, yTics scale config.yTics.tics config.height config.ceiling = .error found) := by
  unfold LineChart.plan at failed
  simp only [Outcome.unless_eq_error_iff, Outcome.bind_eq_error_iff] at failed
  rcases failed with ⟨_, same⟩ | ⟨_, legend | ⟨_, _, assigned | ⟨_, _, derived | ⟨yScale, _, fitted |
    ⟨_, _, resolved | ⟨_, _, impossible⟩⟩⟩⟩⟩⟩
  · cases same
    exact .inl ⟨⟨trivial, nofun⟩, nofun⟩
  · exact .inl (Chart.checkLegend_refusal legend)
  · exact .inl (Palette.assign_refusal assigned)
  · obtain ⟨found, unscaled, rfl⟩ := Outcome.mapError_eq_error_iff.mp derived
    exact .inr ⟨found, rfl, .inl unscaled⟩
  · rcases LineChart.xScale_error_cases fitted with noPoints | ⟨found, low, high, extent, rfl, narrow⟩
    · exact .inl noPoints
    · exact .inr ⟨found, rfl, .inr (.inl ⟨low, high, extent, narrow⟩)⟩
  · obtain ⟨found, refused, rfl⟩ := Outcome.mapError_eq_error_iff.mp resolved
    exact .inr ⟨found, rfl, .inr (.inr ⟨yScale, refused⟩)⟩
  · cases impossible

theorem BarChart.plan_refusal {chart : BarChart} {config : Config} {cause : ChartError}
    (failed : chart.plan config = .error cause) : cause.IsPlanRefusal := by
  rcases BarChart.plan_error_cases failed with inData | ⟨_, rfl, _⟩
  · exact inData.1
  · exact ⟨trivial, nofun⟩

theorem LineChart.plan_refusal {chart : LineChart} {config : Config} {cause : ChartError}
    (failed : chart.plan config = .error cause) : cause.IsPlanRefusal := by
  rcases LineChart.plan_error_cases failed with inData | ⟨_, rfl, _⟩
  · exact inData.1
  · exact ⟨trivial, nofun⟩

/-- Besides the causes of the plan there is one more: a name that already has another meaning. -/
theorem Addition.drawOn_refusal {planned : Except ChartError Addition} {chart : Chart}
    {cause : ChartError} (plannedRefusal : ∀ found, planned = .error found → found.IsRefusal)
    (refused : (drawOn planned chart).1 = .error cause) : cause.IsRefusal := by
  unfold drawOn at refused
  cases planned with
  | error found =>
      cases refused
      exact plannedRefusal _ rfl
  | ok addition =>
      dsimp only at refused
      split at refused
      · cases refused
        trivial
      · cases refused

theorem BarChart.addition_refusal {chart : BarChart} {config : Config} (cause : ChartError)
    (failed : chart.addition config = .error cause) : cause.IsRefusal :=
  (BarChart.plan_refusal (Outcome.map_eq_error_iff.mp failed)).1

theorem LineChart.addition_refusal {chart : LineChart} {config : Config} (cause : ChartError)
    (failed : chart.addition config = .error cause) : cause.IsRefusal :=
  (LineChart.plan_refusal (Outcome.map_eq_error_iff.mp failed)).1

/-! ### A refusal leaves no trace -/

/-- A chart of any history is what it was when a drawing is refused, down to the configuration. Once
the plan of a drawing has passed, its later steps cannot fail: no definition, no set of bars and no
legend. -/
theorem refused_drawing_changes_nothing (start : Chart) :
    (∀ (chart : BarChart) (cause : ChartError), (chart.draw.runOn start).1 = .error cause →
      cause.IsRefusal ∧ (chart.draw.runOn start).2 = start) ∧
    (∀ (chart : LineChart) (cause : ChartError), (chart.draw.runOn start).1 = .error cause →
      cause.IsRefusal ∧ (chart.draw.runOn start).2 = start) ∧
    (∀ (chart : BarChart) (plan : BarPlan), chart.plan start.config = .ok plan →
      (Chart.defineMissing plan.styles).NeverFails ∧
      (chart.drawAll plan 0 (chart.series.zip plan.styles)).NeverFails ∧
      ∀ config, ((Legend.ofLabels .box chart.legend plan.styles).draw config).NeverFails) ∧
    (∀ (chart : LineChart) (plan : LinePlan), chart.plan start.config = .ok plan →
      (Chart.defineMissing plan.styles).NeverFails ∧
      ∀ config, ((Legend.ofLabels .line chart.legend plan.styles).draw config).NeverFails) := by
  refine ⟨?_, ?_, ?_, ?_⟩
  · intro chart cause refused
    rw [BarChart.runOn_draw] at refused ⊢
    exact ⟨Addition.drawOn_refusal BarChart.addition_refusal refused,
      Addition.drawOn_of_error refused⟩
  · intro chart cause refused
    rw [LineChart.runOn_draw] at refused ⊢
    exact ⟨Addition.drawOn_refusal LineChart.addition_refusal refused,
      Addition.drawOn_of_error refused⟩
  · intro chart plan accepted
    have planned := BarChart.planned_of_plan accepted
    exact ⟨Chart.defineMissing_neverFails _, planned.appends_drawAll.neverFails,
      fun config => (Legend.appends_draw _ config).neverFails⟩
  · intro chart plan _
    exact ⟨Chart.defineMissing_neverFails _,
      fun config => (Legend.appends_draw _ config).neverFails⟩

/-- A bar chart of two categories, one row of values a series. -/
def twoCategories (rows : List (List Float)) : BarChart :=
  { keys := ["gcc", "mcf"], series := rows, legend := [], base := 0, top := 0, padding := 0.3 }

/-- A chart on which two series have been drawn, so that the names of three are taken. -/
def afterTwoSeries : Chart := ((twoCategories [[1, 2], [3, 4]]).draw.runOn {}).2

/-- A line through the origin alone. -/
def lineAtOrigin : LineChart :=
  { lines := [[(0, 0)]], legend := [], base := 0, top := 0, xTics := [], padded := false
    marked := false }

theorem refusals_after_two_series :
    ((twoCategories [[1, 2], [3, 4], [5, 6]]).draw.runOn afterTwoSeries).1 =
      .error (.data (.duplicateStyle "bar-style-1")) ∧
    ((twoCategories [[1, 2], [3, 4], [5, 6]]).draw.runOn afterTwoSeries).2 = afterTwoSeries ∧
    (lineAtOrigin.draw.runOn afterTwoSeries).1 = .error (.layout (.degenerateRange 0 0)) ∧
    (lineAtOrigin.draw.runOn afterTwoSeries).2 = afterTwoSeries ∧
    ∃ plan, (twoCategories [[1, 2], [3, 4]]).plan afterTwoSeries.config = .ok plan ∧
      (Chart.defineMissing plan.styles).NeverFails := by
  have barsRefused : ((twoCategories [[1, 2], [3, 4], [5, 6]]).draw.runOn afterTwoSeries).1 =
      .error (.data (.duplicateStyle "bar-style-1")) := by decide +kernel
  have lineRefused : (lineAtOrigin.draw.runOn afterTwoSeries).1 =
      .error (.layout (.degenerateRange 0 0)) := by decide +kernel
  have accepted : ((twoCategories [[1, 2], [3, 4]]).plan afterTwoSeries.config).isOk = true := by
    decide +kernel
  obtain ⟨onBars, onLines, onPlan, _⟩ := refused_drawing_changes_nothing afterTwoSeries
  refine ⟨barsRefused, (onBars _ _ barsRefused).2, lineRefused, (onLines _ _ lineRefused).2, ?_⟩
  cases planned : (twoCategories [[1, 2], [3, 4]]).plan afterTwoSeries.config with
  | error cause =>
      rw [planned] at accepted
      cases accepted
  | ok plan => exact ⟨plan, rfl, (onPlan _ plan planned).1⟩

end TikzChart
