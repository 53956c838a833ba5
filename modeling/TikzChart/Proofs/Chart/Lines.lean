import TikzChart.Proofs.Chart.Addition
import TikzChart.Proofs.Outcome

/-!
Line charts as additions. `LineChart.Planned` lists what is known of a plan that passed the checks.
-/

set_option autoImplicit false

namespace TikzChart.LineChart

/-- Everything that the checks establish. -/
structure Planned (chart : LineChart) (config : Config) (plan : LinePlan) : Prop where
  someLines : chart.lines ≠ []
  legend : Chart.checkLegend chart.legend.length chart.lines.length = .ok ()
  styles : assignLines chart.lines.length = .ok plan.styles
  yScale : deriveScale (.ofRows (chart.lines.map (·.map Prod.snd))) chart.base chart.top
    config.height config.ceiling = .ok plan.yScale
  xScale : chart.xScale config = .ok plan.xScale
  yTics : TikzChart.yTics plan.yScale config.yTics.tics config.height config.ceiling =
    .ok plan.yTics
  xTics : plan.xTics = TikzChart.xTics plan.xScale chart.xTics

theorem planned_of_plan {chart : LineChart} {config : Config} {plan : LinePlan}
    (accepted : chart.plan config = .ok plan) : chart.Planned config plan := by
  unfold LineChart.plan at accepted
  simp only [Outcome.unless_eq_ok_iff, Outcome.bind_eq_ok_iff, Outcome.mapError_eq_ok_iff]
    at accepted
  obtain ⟨someLines, _, legend, styles, assigned, yScale, derived, xScale, fitted, tics, resolved,
    same⟩ := accepted
  cases same
  exact
    { someLines := fun none => someLines (by rw [none]; rfl)
      legend := legend
      styles := assigned
      yScale := derived
      xScale := fitted
      yTics := resolved
      xTics := rfl }

/-- The commands of the whole chart. -/
def drawn (chart : LineChart) (plan : LinePlan) (config : Config) : List DrawCommand :=
  ([Chart.frame config] ++ Chart.yTicCommands config plan.yTics
      ++ Chart.xTicCommands config plan.xTics)
    ++ (((chart.lines.zip plan.styles).mapIdx (chart.lineCommands plan)).flatten
      ++ if chart.legend.isEmpty then []
        else (Legend.ofLabels .line chart.legend plan.styles).drawn config)

/-- What the chart brings along, if its plan passes the checks. -/
def addition (chart : LineChart) (config : Config) : Except ChartError Addition :=
  (chart.plan config).map fun plan => ⟨plan.styles, chart.drawn plan config, config⟩

theorem runOn_draw (chart : LineChart) (start : Chart) :
    chart.draw.runOn start = Addition.drawOn (chart.addition start.config) start := by
  unfold draw addition
  rw [Step.runOn_bind_ok (Step.runOn_get start)]
  dsimp only
  cases accepted : chart.plan start.config with
  | error cause => rfl
  | ok plan =>
      rw [Step.runOn_bind_ok (Step.runOn_ofExcept _ start)]
      apply Charting.runOn_ensureStyles_then
      simp only [Step.runOn_bind, Charting.runOn_onCanvas_appends (Drawing.appends_draw _),
        Canvas.append_append]
      unfold drawn
      cases chart.legend.isEmpty with
      | true => simp
      | false => simp [Charting.runOn_onCanvas_appends (Legend.appends_draw _ _)]

end TikzChart.LineChart
