import TikzChart.Proofs.Chart.Addition
import TikzChart.Proofs.Outcome

/-!
Bar charts as additions. `BarChart.Planned` lists what is known of a plan that passed the checks;
from it follows that every set of bars has equal lengths, so that drawing cannot fail any more.
-/

set_option autoImplicit false

namespace TikzChart.BarChart

/-- Everything that the checks establish. -/
structure Planned (chart : BarChart) (config : Config) (plan : BarPlan) : Prop where
  someKeys : chart.keys ≠ []
  someSeries : chart.series ≠ []
  lengths : ∀ values ∈ chart.series, values.length = chart.keys.length
  legend : Chart.checkLegend chart.legend.length chart.series.length = .ok ()
  styles : assignBars chart.series.length = .ok plan.styles
  scale : deriveScale (.ofRows chart.series) chart.base chart.top config.height config.ceiling =
    .ok plan.scale
  tics : yTics plan.scale config.yTics.tics config.height config.ceiling = .ok plan.tics
  layout : plan.layout =
    BarLayout.divide config.width chart.padding chart.keys.length chart.series.length

theorem planned_of_plan {chart : BarChart} {config : Config} {plan : BarPlan}
    (accepted : chart.plan config = .ok plan) : chart.Planned config plan := by
  unfold BarChart.plan at accepted
  simp only [Outcome.unless_eq_ok_iff, Outcome.bind_eq_ok_iff, Outcome.mapError_eq_ok_iff]
    at accepted
  obtain ⟨someKeys, someSeries, noMismatch, _, legend, styles, assigned, scale, derived, tics,
    resolved, same⟩ := accepted
  cases same
  exact
    { someKeys := fun none => someKeys (by rw [none]; rfl)
      someSeries := fun none => someSeries (by rw [none]; rfl)
      lengths := by
        intro values member
        have noneDiffers := List.countP_eq_zero.mp (Nat.eq_zero_of_not_pos noMismatch)
        simpa using noneDiffers values member
      legend := legend
      styles := assigned
      scale := derived
      tics := resolved
      layout := rfl }

/-! ### The commands of a bar chart -/

/-- The commands of one series: its bars in white, and then the same bars in its style. -/
def seriesCommands (chart : BarChart) (plan : BarPlan) (position : Nat)
    (entry : List Float × Style) : List DrawCommand :=
  let label := chart.legend[position]?.getD ""
  let bars := DrawCommand.bars (chart.lefts plan position) chart.bottoms
    (entry.1.map plan.scale.toPlot) plan.layout.bar
  [.comment ("WHITE BACKGROUND : " ++ label)] ++ (bars "[fill=white]"
    ++ ([.blank, .comment ("REAL STYLE : " ++ label)]
      ++ (bars ("[style=" ++ entry.2.name ++ "]") ++ [.blank])))

/-- The commands of the whole chart. -/
def drawn (chart : BarChart) (plan : BarPlan) (config : Config) : List DrawCommand :=
  ([Chart.frame config, .blank] ++ Chart.yTicCommands config plan.tics ++ [.blank])
    ++ (((chart.series.zip plan.styles).mapIdx (chart.seriesCommands plan)).flatten
      ++ (chart.keyCommands plan config
        ++ if chart.legend.isEmpty then []
          else (Legend.ofLabels .box chart.legend plan.styles).drawn config))

/-- What the chart brings along, if its plan passes the checks. -/
def addition (chart : BarChart) (config : Config) : Except ChartError Addition :=
  (chart.plan config).map fun plan =>
    ⟨plan.styles, chart.drawn plan config, chart.clearKeys config⟩

theorem appends_drawSeries (chart : BarChart) (plan : BarPlan) (position : Nat)
    {values : List Float} (style : Style) (lengths : values.length = chart.keys.length) :
    (chart.drawSeries plan position values style).Appends
      (chart.seriesCommands plan position (values, style)) := by
  have sameBottoms : (chart.lefts plan position).length = chart.bottoms.length := by
    simp [lefts, bottoms]
  have sameHeights :
      (chart.lefts plan position).length = (values.map plan.scale.toPlot).length := by
    simp [lefts, lengths]
  exact (Drawing.appends_draw _).andThen
    ((Drawing.appends_barSet sameBottoms sameHeights _ _).andThen
      ((Drawing.appends_draw _).andThen
        ((Drawing.appends_barSet sameBottoms sameHeights _ _).andThen (Drawing.appends_draw _))))

theorem appends_drawAll (chart : BarChart) (plan : BarPlan) (position : Nat)
    {entries : List (List Float × Style)}
    (lengths : ∀ entry ∈ entries, entry.1.length = chart.keys.length) :
    (chart.drawAll plan position entries).Appends
      (entries.mapIdx fun index => chart.seriesCommands plan (position + index)).flatten := by
  induction entries generalizing position with
  | nil => exact Drawing.appends_pure
  | cons entry entries ih =>
      have first := chart.appends_drawSeries plan position entry.2
        (lengths entry List.mem_cons_self)
      have rest := ih (position + 1) fun other member =>
        lengths other (List.mem_cons_of_mem _ member)
      rw [List.mapIdx_cons, List.flatten_cons]
      simp only [Nat.add_assoc, Nat.add_comm 1] at rest
      exact first.andThen rest

/-- The bars of a planned chart are drawn to the end. -/
theorem Planned.appends_drawAll {chart : BarChart} {config : Config} {plan : BarPlan}
    (planned : chart.Planned config plan) :
    (chart.drawAll plan 0 (chart.series.zip plan.styles)).Appends
      ((chart.series.zip plan.styles).mapIdx (chart.seriesCommands plan)).flatten := by
  have lengths : ∀ entry ∈ chart.series.zip plan.styles, entry.1.length = chart.keys.length :=
    fun entry member => planned.lengths entry.1 (List.of_mem_zip member).1
  simpa only [Nat.zero_add] using chart.appends_drawAll plan 0 lengths

theorem runOn_draw (chart : BarChart) (start : Chart) :
    chart.draw.runOn start = Addition.drawOn (chart.addition start.config) start := by
  unfold draw addition
  rw [Step.runOn_bind_ok (Step.runOn_get start)]
  dsimp only
  cases accepted : chart.plan start.config with
  | error cause => rfl
  | ok plan =>
      have planned := planned_of_plan accepted
      rw [Step.runOn_bind_ok (Step.runOn_ofExcept _ start)]
      apply Charting.runOn_ensureStyles_then
      simp only [Step.runOn_bind, Charting.runOn_configure,
        Charting.runOn_onCanvas_appends (Drawing.appends_draw _),
        Charting.runOn_onCanvas_appends planned.appends_drawAll, Canvas.append_append]
      unfold drawn
      cases chart.legend.isEmpty with
      | true => simp
      | false =>
          -- the legend reads the configuration anew, but only parts that stay as they were
          have legendAppends :
              ((Legend.ofLabels .box chart.legend plan.styles).draw
                (chart.clearKeys start.config)).Appends
              ((Legend.ofLabels .box chart.legend plan.styles).drawn start.config) :=
            Legend.appends_draw _ _
          simp [Step.runOn_bind, Charting.runOn_onCanvas_appends legendAppends]

end TikzChart.BarChart
