import TikzChart.Proofs.Chart.BarPlacement
import TikzChart.Proofs.Chart.LinePlacement
import TikzChart.Proofs.Picture.LegendRows

/-!
Legends agree with what is drawn before them. The sample of a label shows the style in which the
series at the same position is drawn, and nothing else is drawn in that style before the legend.
-/

set_option autoImplicit false

namespace TikzChart

open DrawCommand

namespace Sample

/-- What the options of all samples of a kind begin with. -/
def beginning : Sample → String
  | .box => "[style=bar-style-"
  | .line => "[line-style-"

theorem options_eq (sample : Sample) (position : Nat) :
    sample.options position = sample.beginning ++ (toString (position + 1) ++ "]") := by
  rw [← String.append_assoc]
  cases sample <;> rfl

theorem ne_options {sample : Sample} (position : Nat) {other : String}
    (differs : sample.beginning.toList.isPrefixOf other.toList = false) :
    other ≠ sample.options position := by
  rintro rfl
  rw [options_eq, String.toList_append, List.isPrefixOf_iff_prefix.mpr (List.prefix_append _ _)]
    at differs
  cases differs

theorem eq_of_options_eq {sample : Sample} {position other : Nat}
    (same : sample.options position = sample.options other) : position = other := by
  rw [options_eq, options_eq, String.append_right_inj, String.append_left_inj] at same
  exact Nat.succ.inj (Palette.eq_of_toString_eq same)

end Sample

/-! ### What is drawn in a style -/

/-- Some series could be drawn with these options. -/
def DrawCommand.shows (sample : Sample) (command : DrawCommand) : Bool :=
  command.options?.any fun options => sample.beginning.toList.isPrefixOf options.toList

theorem drawnWith_eq_nil {sample : Sample} {commands : List DrawCommand}
    (others : ∀ command ∈ commands, command.shows sample = false) (position : Nat) :
    drawnWith (sample.options position) commands = [] := by
  rw [drawnWith, List.filter_eq_nil_iff]
  intro command member drawn
  have other := others command member
  rw [DrawCommand.shows, eq_of_beq drawn, Option.any_some] at other
  exact Sample.ne_options position other rfl

theorem drawnWith_append (options : String) (first second : List DrawCommand) :
    drawnWith options (first ++ second) = drawnWith options first ++ drawnWith options second :=
  List.filter_append _ _

theorem yTicCommands_shows (sample : Sample) (config : Config) (tics : List (TicMark Float)) :
    ∀ command ∈ Chart.yTicCommands config tics, command.shows sample = false := by
  simp only [Chart.yTicCommands, Chart.yTicCommandsAt, List.mem_append, List.mem_flatMap,
    List.mem_cons, List.not_mem_nil, or_false]
  rintro command ((rfl | ⟨tic, _, rfl | rfl | rfl⟩) | rfl) <;> cases sample <;> rfl

theorem xTicCommands_shows (sample : Sample) (config : Config) (tics : List (TicMark Float)) :
    ∀ command ∈ Chart.xTicCommands config tics, command.shows sample = false := by
  simp only [Chart.xTicCommands, Chart.xTicCommandsAt, List.mem_append, List.mem_flatMap,
    List.mem_cons, List.not_mem_nil, or_false]
  rintro command ((rfl | ⟨tic, _, rfl | rfl⟩) | rfl) <;> cases sample <;> rfl

theorem keyCommands_shows (chart : BarChart) (plan : BarPlan) (config : Config) :
    ∀ command ∈ chart.keyCommands plan config, command.shows .box = false := by
  simp only [BarChart.keyCommands, BarChart.keyCommand, List.mem_append, List.mem_mapIdx,
    List.mem_cons, List.not_mem_nil, or_false]
  rintro command ((rfl | ⟨position, bound, rfl⟩) | rfl) <;> rfl

theorem drawnWith_bars (options other : String) (lefts bottoms heights : List Float)
    (width : Float) :
    drawnWith options (bars lefts bottoms heights width other) =
      if other = options then bars lefts bottoms heights width other else [] := by
  have sameOptions : ∀ command ∈ bars lefts bottoms heights width other,
      (command.options? == some options) = decide (other = options) := by
    intro command member
    obtain ⟨_, _, rfl⟩ := List.mem_map.mp member
    rfl
  by_cases same : other = options
  · rw [if_pos same, drawnWith, List.filter_eq_self]
    intro command member
    rw [sameOptions command member, decide_eq_true same]
  · rw [if_neg same, drawnWith, List.filter_eq_nil_iff]
    intro command member
    rw [sameOptions command member, decide_eq_false same]
    exact Bool.false_ne_true

/-- Only the block of one series is drawn in the style that is numbered for it. -/
theorem flatten_mapIdx_of_options {α β : Type} {sample : Sample} (block : Nat → α → List β)
    {entries : List α} {position : Nat} (bound : position < entries.length) :
    (entries.mapIdx fun index entry =>
      if sample.options index = sample.options position then block index entry else []).flatten =
        block position entries[position] := by
  have chosen (index : Nat) : sample.options index = sample.options position ↔ index = position :=
    ⟨Sample.eq_of_options_eq, fun same => by rw [same]⟩
  simp only [chosen]
  exact flatten_mapIdx_of_position block bound

namespace BarChart

variable {chart : BarChart} {config : Config} {plan : BarPlan}

/-- The bars of a series, if its style has the given options. -/
def barsShowing (chart : BarChart) (plan : BarPlan) (options : String) (position : Nat)
    (values : List Float) (name : String) : List DrawCommand :=
  if "[style=" ++ name ++ "]" = options then
    bars (chart.lefts plan position) chart.bottoms (values.map plan.scale.toPlot) plan.layout.bar
      ("[style=" ++ name ++ "]")
  else []

theorem drawnWith_seriesCommands (position index : Nat) (entry : List Float × Style) :
    drawnWith (Sample.options .box position) (chart.seriesCommands plan index entry) =
      chart.barsShowing plan (Sample.options .box position) index entry.1 entry.2.name := by
  have white : "[fill=white]" ≠ Sample.options .box position := Sample.ne_options _ rfl
  simp only [seriesCommands, drawnWith_append, drawnWith_bars, if_neg white]
  simp [drawnWith, options?, barsShowing]

theorem Planned.drawnWith_body (planned : chart.Planned config plan) {position : Nat}
    (bound : position < chart.series.length) :
    drawnWith (Sample.options .box position) (chart.body plan config) =
      chart.series[position].mapIdx
        (chart.barAt config plan.scale position (Sample.options .box position)) := by
  have inSeries := filter_zip_of_assign planned.styles (chart.seriesCommands plan) _
    (drawnWith_seriesCommands position)
  have inHead : drawnWith (Sample.options .box position)
      ([Chart.frame config, blank] ++ Chart.yTicCommands config plan.tics ++ [blank]) = [] := by
    apply drawnWith_eq_nil
    intro command member
    simp only [List.mem_append, List.mem_cons, List.not_mem_nil, or_false] at member
    rcases member with ((rfl | rfl) | onAxis) | rfl
    · rfl
    · rfl
    · exact yTicCommands_shows .box config plan.tics command onAxis
    · rfl
  have inKeys := drawnWith_eq_nil (keyCommands_shows chart plan config) position
  simp only [barsShowing, Palette.stem_of_bars (Palette.forBars_ne_lines _), Sample.options_box]
    at inSeries
  rw [body, drawnWith_append, inHead, drawnWith_append, drawnWith, inSeries, inKeys,
    flatten_mapIdx_of_options _ bound, List.nil_append, List.append_nil]
  exact planned.bars_eq (List.getElem_mem bound) position _

end BarChart

namespace LineChart

variable {chart : LineChart} {config : Config} {plan : LinePlan}

theorem drawnWith_lineCommands (position index : Nat) (entry : List (Float × Float) × Style) :
    drawnWith (Sample.options .line position) (chart.lineCommands plan index entry) =
      if "[" ++ entry.2.name ++ "]" = Sample.options .line position then
        [chart.lineNamed plan entry.1 entry.2.name]
      else [] := by
  unfold lineCommands lineNamed
  cases chart.marked with
  | true => simp [drawnWith, options?, List.filter_cons]
  | false => simp [drawnWith, options?, List.filter_cons]

theorem Planned.drawnWith_body (planned : chart.Planned config plan) {position : Nat}
    (bound : position < chart.lines.length) :
    drawnWith (Sample.options .line position) (chart.body plan config) =
      [chart.lineAt plan.xScale plan.yScale position chart.lines[position]] := by
  have inLines := filter_zip_of_assign planned.styles (chart.lineCommands plan)
    (fun _ line name => if "[" ++ name ++ "]" = Sample.options .line position then
      [chart.lineNamed plan line name] else [])
    (drawnWith_lineCommands position)
  have inHead : drawnWith (Sample.options .line position)
      ([Chart.frame config] ++ Chart.yTicCommands config plan.yTics
        ++ Chart.xTicCommands config plan.xTics) = [] := by
    apply drawnWith_eq_nil
    intro command member
    simp only [List.mem_append, List.mem_singleton] at member
    rcases member with (rfl | onY) | onX
    · rfl
    · exact yTicCommands_shows .line config plan.yTics command onY
    · exact xTicCommands_shows .line config plan.xTics command onX
  simp only [lineNamed, Palette.stem, Sample.options_line] at inLines
  rw [body, drawnWith_append, inHead, drawnWith, inLines, flatten_mapIdx_of_options _ bound]
  rfl

end LineChart

/-! ### Rows -/

namespace Legend

/-- The sample and the label of the series at a position, in a legend of so many rows. -/
def rowAt (layout : LegendLayout) (sample : Sample) (rows position : Nat) (label : String) :
    List DrawCommand :=
  let x := layout.entryXshift
  let y := rowHeight layout rows position
  let options := sample.options position
  match sample with
  | .box =>
    [rectangle ⟨x, y⟩ layout.boxWidth layout.boxHeight options,
      text ⟨x + layout.textXshift, y + layout.textYshift⟩ label layout.font "[right]"]
  | .line =>
    [lineBy ⟨x + 0, y + layout.boxHeight / 2⟩ ⟨layout.boxWidth * 2, 0⟩ options,
      text ⟨x + (layout.textXshift + layout.boxWidth), y + layout.textYshift⟩ label layout.font
        "[right]"]

/-- The palette in whose styles the samples are. -/
def paletteOf (series : Nat) : Sample → Palette
  | .box => .forBars series
  | .line => .lines

/-- The rows are drawn from the bottom up. -/
theorem commands_eq_rows (layout : LegendLayout) {sample : Sample} {labels : List String}
    {styles : List Style} (assigned : (paletteOf labels.length sample).assign labels.length =
      .ok styles) :
    (ofLabels sample labels styles).commands layout =
      (labels.mapIdx (rowAt layout sample labels.length)).reverse.flatten := by
  have sameLength : (labels.zip styles).length = labels.length := by
    rw [List.length_zip, Palette.length_of_assign assigned, Nat.min_self]
  -- Entries are numbered after they are reversed; numbered before it, they count from the top.
  rw [commands, ofLabels, List.mapIdx_reverse, sameLength]
  congr 2
  cases sample with
  | box =>
      have rows := Palette.mapIdx_zip_of_assign assigned fun position label name =>
        let corner := entryCorner layout (labels.length - 1 - position)
        [rectangle corner layout.boxWidth layout.boxHeight ("[style=" ++ name ++ "]"),
          text (corner.offset layout.textXshift layout.textYshift) label layout.font "[right]"]
      simp only [paletteOf, Palette.stem_of_bars (Palette.forBars_ne_lines _),
        Sample.options_box] at rows
      exact rows
  | line =>
      have rows := Palette.mapIdx_zip_of_assign assigned fun position label name =>
        let corner := entryCorner layout (labels.length - 1 - position)
        [lineBy (corner.offset 0 (layout.boxHeight / 2)) ⟨layout.boxWidth * 2, 0⟩
            ("[" ++ name ++ "]"),
          text (corner.offset (layout.textXshift + layout.boxWidth) layout.textYshift) label
            layout.font "[right]"]
      simp only [paletteOf, Palette.stem, Sample.options_line] at rows
      exact rows

end Legend

/-! ### Whole charts -/

/-- What a chart appends ends in a legend that agrees with the drawings of the series before it. -/
structure LegendAgrees (config : Config) (sample : Sample) (labels : List String)
    (drawings : List (List DrawCommand)) (added : List DrawCommand) : Prop where
  absent : labels = [] → ∀ command ∈ added, command.IsFlat
  counted : labels ≠ [] → labels.length = drawings.length
  last : labels ≠ [] → ∃ body : List DrawCommand,
    (∀ command ∈ body, command.IsFlat) ∧
    added = body
      ++ ([openPart ⟨config.width - 20 + config.legend.xshift,
            config.height - 5 + config.legend.yshift⟩ "[fill=white,draw]"]
        ++ (text Point.origin "" .normalSize ""
          :: (labels.mapIdx (Legend.rowAt config.legend sample labels.length)).reverse.flatten)
        ++ [closePart]) ∧
    openings added = 1 ∧
    ∀ (position : Nat) (bound : position < drawings.length),
      drawnWith (sample.options position) body = drawings[position]
  ordered : config.legend.entryYshift.isFinite = true →
    config.legend.entryHeight.isFinite = true → 0 ≤ config.legend.entryHeight →
    ∀ upper lower : Nat, upper ≤ lower → lower < labels.length →
      Legend.rowHeight config.legend labels.length lower ≤
        Legend.rowHeight config.legend labels.length upper
  apart : config.legend.KeepsApart → ∀ upper lower : Nat, upper < lower → lower < labels.length →
    Legend.rowHeight config.legend labels.length lower <
      Legend.rowHeight config.legend labels.length upper

theorem LegendAgrees.of_body {config : Config} {sample : Sample} {labels : List String}
    {styles : List Style} {drawings : List (List DrawCommand)} {body : List DrawCommand}
    (flat : ∀ command ∈ body, command.IsFlat)
    (checked : Chart.checkLegend labels.length drawings.length = .ok ())
    (assigned : (Legend.paletteOf drawings.length sample).assign drawings.length = .ok styles)
    (drawn : ∀ (position : Nat) (bound : position < drawings.length),
      drawnWith (sample.options position) body = drawings[position]) :
    LegendAgrees config sample labels drawings
      (body ++ Legend.last sample labels styles config) := by
  -- No palette is large, so rows are counted exactly by floats.
  have few : labels.length ≤ 11 := by
    by_cases noLabels : labels = []
    · rw [noLabels]
      exact Nat.zero_le 11
    · rw [Chart.length_eq_of_checkLegend checked noLabels]
      exact (Palette.assign_eq_ok_iff.mp assigned).1.trans (Palette.capacity_le _)
  constructor
  case absent =>
    rintro rfl
    change ∀ command ∈ body ++ [], _
    rwa [List.append_nil]
  case counted => exact Chart.length_eq_of_checkLegend checked
  case last =>
    intro someLabels
    rw [← Chart.length_eq_of_checkLegend checked someLabels] at assigned
    refine ⟨body ++ [comment "Legend for the keys"], Legend.flat_with_note flat, ?_, ?_, ?_⟩
    · rw [Legend.append_last sample styles config someLabels, Legend.content,
        Legend.commands_eq_rows config.legend assigned]
      rfl
    · rw [Legend.append_last sample styles config someLabels, openings_append,
        openings_of_flat (Legend.flat_with_note flat), openings_append, openings_append,
        openings_of_flat (Legend.content_flat _ _)]
      rfl
    · intro position bound
      rw [drawnWith_append, drawn position bound]
      exact List.append_nil _
  case ordered =>
    intro shiftFinite heightFinite nonneg upper lower above _
    exact Legend.rowHeight_le shiftFinite heightFinite nonneg (by omega) above
  case apart =>
    intro keepsApart upper lower above within
    exact Legend.rowHeight_lt keepsApart (by omega) above within

/-- The legend of a bar chart or a line chart shows the style of every series beside its label, and
the rows stand in series order from the top down unless their height is negative. -/
theorem legends_agree_with_drawings (start final : Chart) :
    (∀ chart : BarChart, chart.draw.runOn start = (.ok (), final) →
      ∃ (added : List DrawCommand) (scale : LinearScale Float),
        final.canvas.commands = start.canvas.commands ++ added ∧
        deriveScale (.ofRows chart.series) chart.base chart.top start.config.height
          start.config.ceiling = .ok scale ∧
        LegendAgrees start.config .box chart.legend
          (chart.series.mapIdx fun position values => values.mapIdx
            (chart.barAt start.config scale position (Sample.options .box position))) added) ∧
    (∀ chart : LineChart, chart.draw.runOn start = (.ok (), final) →
      ∃ (added : List DrawCommand) (xScale yScale : LinearScale Float),
        final.canvas.commands = start.canvas.commands ++ added ∧
        chart.xScale start.config = .ok xScale ∧
        deriveScale (.ofRows (chart.lines.map (·.map Prod.snd))) chart.base chart.top
          start.config.height start.config.ceiling = .ok yScale ∧
        LegendAgrees start.config .line chart.legend
          (chart.lines.mapIdx fun position line => [chart.lineAt xScale yScale position line])
          added) := by
  constructor
  · intro chart accepted
    obtain ⟨plan, planned, appended⟩ := BarChart.planned_of_draw accepted
    refine ⟨_, plan.scale, appended, planned.scale, .of_body ?_ ?_ ?_ ?_⟩
    · exact fun command member => (chart.body_plain plan start.config command member).1
    · rw [List.length_mapIdx]
      exact planned.legend
    · rw [List.length_mapIdx]
      exact planned.styles
    · intro position bound
      rw [List.length_mapIdx] at bound
      rw [List.getElem_mapIdx]
      exact planned.drawnWith_body bound
  · intro chart accepted
    obtain ⟨plan, planned, appended⟩ := LineChart.planned_of_draw accepted
    refine ⟨_, plan.xScale, plan.yScale, appended, planned.xScale, planned.yScale,
      .of_body ?_ ?_ ?_ ?_⟩
    · exact fun command member => (chart.body_plain plan start.config command member).1
    · rw [List.length_mapIdx]
      exact planned.legend
    · rw [List.length_mapIdx]
      exact planned.styles
    · intro position bound
      rw [List.length_mapIdx] at bound
      rw [List.getElem_mapIdx]
      exact planned.drawnWith_body bound

theorem labelled_charts_agree :
    (∃ (final : Chart) (added : List DrawCommand) (scale : LinearScale Float),
      BarChart.labelledBars.draw.runOn {} = (.ok (), final) ∧ final.canvas.commands = added ∧
      LegendAgrees {} .box ["base", "peak"]
        ([[1, 2], [3, 4]].mapIdx fun position values => values.mapIdx
          (BarChart.labelledBars.barAt {} scale position (Sample.options .box position))) added) ∧
    (∃ (final : Chart) (added : List DrawCommand) (xScale yScale : LinearScale Float),
      LineChart.labelledLines.draw.runOn {} = (.ok (), final) ∧ final.canvas.commands = added ∧
      LegendAgrees {} .line ["low", "none", "high"]
        ([[(0, 1), (5, 2)], [], [(10, 3), (20, 4)]].mapIdx fun position line =>
          [LineChart.labelledLines.lineAt xScale yScale position line]) added) ∧
    Legend.rowHeight {} 2 1 < Legend.rowHeight {} 2 0 := by
  have barsAccepted := BarChart.labelledBars_accepted
  have linesAccepted := LineChart.labelledLines_accepted
  obtain ⟨barsAdded, scale, barsAppended, _, barsAgree⟩ :=
    (legends_agree_with_drawings _ _).1 _ barsAccepted
  obtain ⟨linesAdded, xScale, yScale, linesAppended, _, _, linesAgree⟩ :=
    (legends_agree_with_drawings _ _).2 _ linesAccepted
  exact ⟨⟨_, barsAdded, scale, barsAccepted, barsAppended, barsAgree⟩,
    ⟨_, linesAdded, xScale, yScale, linesAccepted, linesAppended, linesAgree⟩,
    barsAgree.apart LegendLayout.keepsApart_default 0 1 (by decide) (by decide)⟩

/-- A chart whose legend grows downwards, and one whose legend is shifted so far up that the height
of a row is lost beside it. -/
def sunkenChart : Chart := { config := { legend := { entryHeight := -4 } } }

def loftyChart : Chart := { config := { legend := { entryYshift := 1e17, entryHeight := 1 } } }

/-- The first series is not on top if rows have a negative height, or one that rounding loses. -/
theorem first_series_not_on_top :
    (∃ final : Chart, BarChart.labelledBars.draw.runOn sunkenChart = (.ok (), final) ∧
      (insideParts final.canvas.commands).filter isRectangle =
        [rectangle ⟨1, 1⟩ 2 2 "[style=bar-style-2]", rectangle ⟨1, -3⟩ 2 2 "[style=bar-style-1]"] ∧
      (-3 : Float) < 1) ∧
    ∃ final : Chart, BarChart.labelledBars.draw.runOn loftyChart = (.ok (), final) ∧
      (insideParts final.canvas.commands).filter isRectangle =
        [rectangle ⟨1, 1e17⟩ 2 2 "[style=bar-style-2]",
          rectangle ⟨1, 1e17⟩ 2 2 "[style=bar-style-1]"] := by
  refine ⟨⟨_, Step.runOn_of_ok ?_, ?_, ?_⟩, ⟨_, Step.runOn_of_ok ?_, ?_⟩⟩
  · decide +kernel
  · decide +kernel
  · decide +kernel
  · decide +kernel
  · decide +kernel

end TikzChart
