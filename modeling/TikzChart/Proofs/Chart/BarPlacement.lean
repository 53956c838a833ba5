import TikzChart.Proofs.Chart.Accepted

/-!
Where the bars of a chart stand. Every value has a white bar and then a bar in the style of its
series at the same place, in the slot of its key. Outside the legend there is no rectangle but these
and the frame.
-/

set_option autoImplicit false

namespace TikzChart

open DrawCommand

def DrawCommand.isKey : DrawCommand → Bool
  | text _ _ _ options => options == "[rotate=90,left]"
  | _ => false

def DrawCommand.isRectangleOrKey (command : DrawCommand) : Bool :=
  command.isRectangle || command.isKey

namespace BarChart

variable (chart : BarChart) (config : Config) (scale : LinearScale Float)

/-- The bar of one value. The positions of its series and of its key are counted from 0. -/
def barAt (series : Nat) (options : String) (key : Nat) (value : Float) : DrawCommand :=
  let slot := config.width / Float.ofNat chart.keys.length
  let bar := slot * (1 - chart.padding) / Float.ofNat chart.series.length
  let gap := chart.padding * slot / 2
  rectangle ⟨Float.ofNat key * slot + gap + Float.ofNat series * bar, 0⟩ bar (scale.toPlot value)
    options

def keyAt (key : Nat) (name : String) : DrawCommand :=
  let slot := config.width / Float.ofNat chart.keys.length
  text ⟨Float.ofNat key * slot + slot / 2, config.xTics.shift⟩ name config.xTics.font
    "[rotate=90,left]"

/-- All bars of a series, first in white and then in the style that is numbered for it. -/
def barsOfSeries (series : Nat) (values : List Float) : List DrawCommand :=
  values.mapIdx (chart.barAt config scale series "[fill=white]")
    ++ values.mapIdx (chart.barAt config scale series (Sample.options .box series))

/-! ### Bars -/

variable {chart config} {plan : BarPlan}

theorem Planned.bars_eq (planned : chart.Planned config plan) {values : List Float}
    (isSeries : values ∈ chart.series) (series : Nat) (options : String) :
    bars (chart.lefts plan series) chart.bottoms (values.map plan.scale.toPlot) plan.layout.bar
      options = values.mapIdx (chart.barAt config plan.scale series options) := by
  have sameLength := planned.lengths values isSeries
  apply List.ext_getElem
  · simp [bars, lefts, bottoms, sameLength]
  · intro key _ _
    simp only [bars, lefts, bottoms, List.getElem_map, List.getElem_zip, List.getElem_range,
      List.getElem_replicate, List.getElem_mapIdx, planned.layout]
    rfl

theorem filter_bars (lefts bottoms heights : List Float) (width : Float) (options : String) :
    (bars lefts bottoms heights width options).filter isRectangleOrKey =
      bars lefts bottoms heights width options := by
  rw [List.filter_eq_self]
  intro command member
  obtain ⟨_, _, rfl⟩ := List.mem_map.mp member
  rfl

/-- The bars that are drawn for a series whose style has the given name. -/
def barsNamed (chart : BarChart) (plan : BarPlan) (position : Nat) (values : List Float)
    (name : String) : List DrawCommand :=
  let barsWith := bars (chart.lefts plan position) chart.bottoms (values.map plan.scale.toPlot)
    plan.layout.bar
  barsWith "[fill=white]" ++ barsWith ("[style=" ++ name ++ "]")

theorem filter_seriesCommands (position : Nat) (entry : List Float × Style) :
    (chart.seriesCommands plan position entry).filter isRectangleOrKey =
      chart.barsNamed plan position entry.1 entry.2.name := by
  simp only [seriesCommands, List.filter_append, filter_bars]
  simp [isRectangleOrKey, isRectangle, isKey, barsNamed]

theorem Planned.filter_series (planned : chart.Planned config plan) :
    ((chart.series.zip plan.styles).mapIdx (chart.seriesCommands plan)).flatten.filter
      isRectangleOrKey =
        (chart.series.mapIdx (chart.barsOfSeries config plan.scale)).flatten := by
  rw [filter_zip_of_assign planned.styles _ (chart.barsNamed plan) filter_seriesCommands,
    Palette.stem_of_bars (Palette.forBars_ne_lines _)]
  congr 1
  rw [List.mapIdx_eq_mapIdx_iff]
  intro position bound
  have isSeries := List.getElem_mem bound
  simp only [barsNamed, planned.bars_eq isSeries, Sample.options_box, barsOfSeries]

/-! ### The whole chart -/

theorem Planned.filter_body (planned : chart.Planned config plan) :
    (chart.body plan config).filter isRectangleOrKey =
      [Chart.frame config]
        ++ (chart.series.mapIdx (chart.barsOfSeries config plan.scale)).flatten
        ++ chart.keys.mapIdx (chart.keyAt config) := by
  have noTic : (Chart.yTicCommands config plan.tics).filter isRectangleOrKey = [] := by
    rw [List.filter_eq_nil_iff]
    simp +contextual [Chart.yTicCommands, Chart.yTicCommandsAt, or_imp, isRectangleOrKey,
      isRectangle, isKey]
  have keys : (chart.keyCommands plan config).filter isRectangleOrKey =
      chart.keys.mapIdx (chart.keyAt config) := by
    have same : keyCommand plan config = chart.keyAt config := by
      unfold keyCommand
      rw [planned.layout]
      rfl
    have allKept : (chart.keys.mapIdx (chart.keyAt config)).filter isRectangleOrKey =
        chart.keys.mapIdx (chart.keyAt config) := by
      rw [List.filter_eq_self]
      intro command member
      obtain ⟨_, _, rfl⟩ := List.mem_mapIdx.mp member
      rfl
    rw [keyCommands, List.filter_append, List.filter_append, same, allKept]
    exact List.append_nil _
  simp only [body, List.filter_append, noTic, keys, planned.filter_series,
    List.append_assoc]
  rfl

theorem countP_isRectangle_filter (commands : List DrawCommand) :
    (commands.filter isRectangleOrKey).countP isRectangle = commands.countP isRectangle := by
  rw [List.countP_filter]
  congr 1
  funext command
  cases command <;> rfl

theorem Planned.countP_filtered (planned : chart.Planned config plan) :
    ([Chart.frame config] ++ (chart.series.mapIdx (chart.barsOfSeries config scale)).flatten
        ++ chart.keys.mapIdx (chart.keyAt config)).countP isRectangle =
      2 * chart.keys.length * chart.series.length + 1 := by
  have everyBar (values : List Float) (make : Nat → Float → DrawCommand)
      (isBar : ∀ key value, (make key value).isRectangle = true) :
      (values.mapIdx make).countP isRectangle = values.length := by
    have allBars : ∀ command ∈ values.mapIdx make, command.isRectangle = true := by
      intro command member
      obtain ⟨key, bound, rfl⟩ := List.mem_mapIdx.mp member
      exact isBar key _
    rw [List.countP_eq_length.mpr allBars, List.length_mapIdx]
  have inSeries : (chart.series.mapIdx (chart.barsOfSeries config scale)).flatten.countP
      isRectangle = chart.series.length * (chart.keys.length + chart.keys.length) := by
    apply countP_flatten_mapIdx
    intro position bound
    rw [barsOfSeries, List.countP_append, everyBar _ _ fun _ _ => rfl, everyBar _ _ fun _ _ => rfl,
      planned.lengths _ (List.getElem_mem bound)]
  have noKey : (chart.keys.mapIdx (chart.keyAt config)).countP isRectangle = 0 := by
    rw [List.countP_eq_zero]
    intro command member
    obtain ⟨key, bound, rfl⟩ := List.mem_mapIdx.mp member
    exact Bool.false_ne_true
  rw [List.countP_append, List.countP_append, inSeries, noKey]
  change 1 + _ + 0 = _
  rw [← Nat.two_mul, Nat.mul_comm, Nat.add_zero, Nat.add_comm]

theorem Planned.countP_legend (planned : chart.Planned config plan) (someLabels : chart.legend ≠ []) :
    ((Legend.ofLabels .box chart.legend plan.styles).content config.legend).countP isRectangle =
      chart.series.length := by
  have sameLength := Chart.length_eq_of_checkLegend planned.legend someLabels
  have inEntries : ((Legend.ofLabels .box chart.legend plan.styles).commands config.legend).countP
      isRectangle = (Legend.ofLabels .box chart.legend plan.styles).entries.reverse.length * 1 :=
    countP_flatten_mapIdx _ _ _ fun _ _ => rfl
  rw [Legend.content, List.countP_cons_of_neg Bool.false_ne_true, inEntries, List.length_reverse,
    Nat.mul_one, Legend.ofLabels, List.length_zip, Palette.length_of_assign planned.styles,
    sameLength, Nat.min_self]

/-- Outside the legend a chart of `n` keys and `m` series has the frame, `2 * n * m` bars and then
`n` keys, each at the place of its position; inside it has one sample a series. -/
theorem bars_stand_in_their_slots {chart : BarChart} {start final : Chart}
    (accepted : chart.draw.runOn start = (.ok (), final)) :
    ∃ (added : List DrawCommand) (scale : LinearScale Float),
      final.canvas.commands = start.canvas.commands ++ added ∧
      deriveScale (.ofRows chart.series) chart.base chart.top start.config.height
        start.config.ceiling = .ok scale ∧
      (∀ values ∈ chart.series, values.length = chart.keys.length) ∧
      (outsideParts added).filter isRectangleOrKey =
        [rectangle Point.origin start.config.width start.config.height ""]
          ++ (chart.series.mapIdx (chart.barsOfSeries start.config scale)).flatten
          ++ chart.keys.mapIdx (chart.keyAt start.config) ∧
      (outsideParts added).countP isRectangle =
        2 * chart.keys.length * chart.series.length + 1 ∧
      (insideParts added).countP isRectangle =
        if chart.legend.isEmpty then 0 else chart.series.length := by
  obtain ⟨plan, planned, appended⟩ := planned_of_draw accepted
  have flat : ∀ command ∈ chart.body plan start.config, command.IsFlat :=
    fun command member => (chart.body_plain plan start.config command member).1
  have selected : (outsideParts (chart.body plan start.config
      ++ Legend.last .box chart.legend plan.styles start.config)).filter isRectangleOrKey =
        [Chart.frame start.config]
          ++ (chart.series.mapIdx (chart.barsOfSeries start.config plan.scale)).flatten
          ++ chart.keys.mapIdx (chart.keyAt start.config) := by
    have noNote : (if chart.legend.isEmpty then [] else
        [comment "Legend for the keys"]).filter isRectangleOrKey = [] := by
      cases chart.legend.isEmpty <;> rfl
    rw [Legend.outsideParts_append_last flat, List.filter_append, noNote, List.append_nil,
      planned.filter_body]
  refine ⟨_, plan.scale, appended, planned.scale, planned.lengths, selected, ?_, ?_⟩
  · rw [← countP_isRectangle_filter, selected, planned.countP_filtered]
  · rw [Legend.insideParts_append_last flat]
    by_cases noLabels : chart.legend.isEmpty = true
    · rw [if_pos noLabels, if_pos noLabels]
      rfl
    · rw [if_neg noLabels, if_neg noLabels]
      exact planned.countP_legend (by simpa using noLabels)

/-- Two keys, and two series that are named in a legend. -/
def labelledBars : BarChart :=
  { keys := ["gcc", "mcf"], series := [[1, 2], [3, 4]], legend := ["base", "peak"], base := 0,
    top := 0, padding := 0.3 }

theorem labelledBars_accepted :
    labelledBars.draw.runOn {} = (.ok (), (labelledBars.draw.runOn {}).2) :=
  Step.runOn_of_ok (by decide +kernel)

/-- The styled bars of the second series stand beside those of the first, 50 and 150 from the left,
and are 60 and 80 high; the two keys come behind them. -/
theorem labelled_bars_counted :
    ∃ (final : Chart) (added : List DrawCommand),
      labelledBars.draw.runOn {} = (.ok (), final) ∧ final.canvas.commands = added ∧
      ((outsideParts added).filter isRectangleOrKey).drop 7 =
        [rectangle ⟨50, 0⟩ 35 60 "[style=bar-style-2]",
          rectangle ⟨150, 0⟩ 35 80 "[style=bar-style-2]",
          text ⟨50, -1⟩ "gcc" .small "[rotate=90,left]",
          text ⟨150, -1⟩ "mcf" .small "[rotate=90,left]"] ∧
      (outsideParts added).countP isRectangle = 9 ∧
      (insideParts added).countP isRectangle = 2 := by
  obtain ⟨added, scale, appended, derived, _, listed, outside, inside⟩ :=
    bars_stand_in_their_slots labelledBars_accepted
  have isScale : deriveScale (.ofRows labelledBars.series) labelledBars.base labelledBars.top
      ({} : Chart).config.height ({} : Chart).config.ceiling = .ok ⟨0, 4, 20, 0⟩ := by
    decide +kernel
  cases derived.symm.trans isScale
  refine ⟨_, added, labelledBars_accepted, appended, ?_, outside, inside⟩
  rw [listed]
  decide +kernel

end BarChart

end TikzChart
