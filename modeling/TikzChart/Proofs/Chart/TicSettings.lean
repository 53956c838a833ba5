import TikzChart.Proofs.Chart.Refusal
import TikzChart.Proofs.Layout.TicCount

/-!
What the settings of the tics decide about a chart. The tics of the vertical axis come last in a
plan. So a plan with some settings is the plan without any, unless the settings ask for too many
tics on the scale that it has, and no other cause of a refusal lies in them.
-/

set_option autoImplicit false

namespace TikzChart

def Config.withTics (config : Config) (tics : TicSettings Float) : Config :=
  { config with yTics := { config.yTics with tics } }

/-! ### Plans with and without settings -/

theorem yTics_of_none (scale : LinearScale Float) (height fraction : Float) :
    ∃ marks, yTics scale ⟨none, none⟩ height fraction = .ok marks := by
  cases drawn : yTics scale ⟨none, none⟩ height fraction with
  | error cause => exact (exceeds_of_yTics_error drawn).elim
  | ok marks => exact ⟨marks, rfl⟩

theorem BarChart.plan_withTics (chart : BarChart) (config : Config) (settings : TicSettings Float) :
    chart.plan (config.withTics settings) = (do
      let plan ← chart.plan (config.withTics ⟨none, none⟩)
      let tics ← (yTics plan.scale settings config.height config.ceiling).mapError .layout
      pure { plan with tics }) := by
  unfold plan
  by_cases noKeys : chart.keys.isEmpty = true
  · simp only [if_pos noKeys]
    rfl
  by_cases noSeries : chart.series.isEmpty = true
  · simp only [if_neg noKeys, if_pos noSeries]
    rfl
  by_cases mismatched : 0 < chart.series.countP (·.length ≠ chart.keys.length)
  · simp only [if_neg noKeys, if_neg noSeries, if_pos mismatched]
    rfl
  simp only [if_neg noKeys, if_neg noSeries, if_neg mismatched, bind_assoc, pure_bind]
  refine bind_congr fun _ => bind_congr fun styles => bind_congr fun scale => ?_
  obtain ⟨marks, drawn⟩ := yTics_of_none scale config.height config.ceiling
  change _ = (yTics scale ⟨none, none⟩ config.height config.ceiling).mapError _ >>= _
  rw [drawn]
  rfl

theorem LineChart.plan_withTics (chart : LineChart) (config : Config) (settings : TicSettings Float) :
    chart.plan (config.withTics settings) = (do
      let plan ← chart.plan (config.withTics ⟨none, none⟩)
      let tics ← (yTics plan.yScale settings config.height config.ceiling).mapError .layout
      pure { plan with yTics := tics }) := by
  unfold plan
  by_cases noLines : chart.lines.isEmpty = true
  · simp only [if_pos noLines]
    rfl
  simp only [if_neg noLines, bind_assoc, pure_bind]
  refine bind_congr fun _ => bind_congr fun styles => bind_congr fun yScale =>
    bind_congr fun xScale => ?_
  obtain ⟨marks, drawn⟩ := yTics_of_none yScale config.height config.ceiling
  change _ = (yTics yScale ⟨none, none⟩ config.height config.ceiling).mapError _ >>= _
  rw [drawn]
  rfl

/-! ### Drawings on new charts -/

/-- What becomes of a drawing on a chart without styles: it has a scale, and then the tics have to
fit. -/
theorem BarChart.outcome_draw (chart : BarChart) (start : Chart) (fresh : start.canvas.styles = []) :
    (chart.draw.runOn start).1 = (do
      let plan ← chart.plan (start.config.withTics ⟨none, none⟩)
      let _ ← (yTics plan.scale start.config.yTics.tics start.config.height
        start.config.ceiling).mapError .layout
      pure ()) := by
  have plan : chart.plan start.config = _ := chart.plan_withTics start.config start.config.yTics.tics
  rw [runOn_draw, Addition.outcome_drawOn fresh, addition, plan]
  simp only [Outcome.map_bind]
  rfl

theorem LineChart.outcome_draw (chart : LineChart) (start : Chart)
    (fresh : start.canvas.styles = []) :
    (chart.draw.runOn start).1 = (do
      let plan ← chart.plan (start.config.withTics ⟨none, none⟩)
      let _ ← (yTics plan.yScale start.config.yTics.tics start.config.height
        start.config.ceiling).mapError .layout
      pure ()) := by
  have plan : chart.plan start.config = _ := chart.plan_withTics start.config start.config.yTics.tics
  rw [runOn_draw, Addition.outcome_drawOn fresh, addition, plan]
  simp only [Outcome.map_bind]
  rfl

/-! ### Causes of a refusal -/

/-- A cause that lies in the tics. -/
def ChartError.isTooManyTics : ChartError → Bool
  | layout (.tooManyTics _ _) => true
  | _ => false

theorem fit_error {low high extent : Float} {cause : LayoutError Float}
    (failed : LinearScale.fit low high extent = .error cause) :
    (ChartError.layout cause).isTooManyTics = false := by
  unfold LinearScale.fit at failed
  split at failed
  · cases failed
    rfl
  · dsimp only at failed
    split at failed
    · cases failed
    · cases failed
      rfl

theorem deriveScale_error {tree : NumericTree Float} {base top height fraction : Float}
    {cause : LayoutError Float} (failed : deriveScale tree base top height fraction = .error cause) :
    (ChartError.layout cause).isTooManyTics = false := by
  unfold deriveScale at failed
  split at failed
  · cases failed
    rfl
  · exact fit_error failed

theorem ChartError.IsDataRefusal.not_tooManyTics {cause : ChartError} (inData : cause.IsDataRefusal) :
    cause.isTooManyTics = false := by
  cases cause with
  | layout found => exact absurd rfl (inData.2 found)
  | _ => rfl

theorem BarChart.plan_error_of_none {chart : BarChart} {config : Config} {cause : ChartError}
    (failed : chart.plan (config.withTics ⟨none, none⟩) = .error cause) :
    cause.isTooManyTics = false := by
  rcases BarChart.plan_error_cases failed with inData | ⟨found, rfl, derived | ⟨scale, refused⟩⟩
  · exact inData.not_tooManyTics
  · exact deriveScale_error derived
  · exact (exceeds_of_yTics_error refused).elim

theorem LineChart.plan_error_of_none {chart : LineChart} {config : Config} {cause : ChartError}
    (failed : chart.plan (config.withTics ⟨none, none⟩) = .error cause) :
    cause.isTooManyTics = false := by
  rcases LineChart.plan_error_cases failed with
    inData | ⟨found, rfl, derived | ⟨low, high, extent, narrow⟩ | ⟨scale, refused⟩⟩
  · exact inData.not_tooManyTics
  · exact deriveScale_error derived
  · exact fit_error narrow
  · exact (exceeds_of_yTics_error refused).elim

end TikzChart
