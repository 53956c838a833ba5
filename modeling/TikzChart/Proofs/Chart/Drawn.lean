import TikzChart.Proofs.Chart.Bars
import TikzChart.Proofs.Chart.Lines
import TikzChart.Proofs.Picture.Styling

/-!
What bar charts and line charts append: nested commands that are drawn in the styles which the chart
brings along. The legend is the only part; everything else is flat.
-/

set_option autoImplicit false

namespace TikzChart

open DrawCommand

/-! ### Flat pieces -/

theorem DrawCommand.bars_plain {styles : List Style} {lefts bottoms heights : List Float}
    {width : Float} {options : String}
    (drawn : NamesStyle styles "[style=" options ∨ options = "[fill=white]") :
    ∀ command ∈ bars lefts bottoms heights width options, command.IsPlainIn styles := by
  intro command member
  obtain ⟨⟨left, bottom, height⟩, _, same⟩ := List.mem_map.mp member
  rw [← same]
  refine ⟨⟨rfl, rfl⟩, ?_⟩
  rcases drawn with named | white
  · exact .inl named
  · exact .inr ⟨rfl, .inr white⟩

@[simp] theorem DrawCommand.comment_plain (styles : List Style) (note : String) :
    (comment note).IsPlainIn styles := ⟨⟨rfl, rfl⟩, trivial⟩

@[simp] theorem DrawCommand.blank_plain (styles : List Style) : blank.IsPlainIn styles :=
  ⟨⟨rfl, rfl⟩, trivial⟩

@[simp] theorem DrawCommand.text_plain (styles : List Style) (point : Point) (content : String)
    (font : FontSize) (options : String) : (text point content font options).IsPlainIn styles :=
  ⟨⟨rfl, rfl⟩, trivial⟩

@[simp] theorem DrawCommand.lineBy_plain (styles : List Style) (start : Point) (shift : Shift)
    (options : String) : (lineBy start shift options).IsPlainIn styles :=
  ⟨⟨rfl, rfl⟩, fun inside => nomatch inside⟩

@[simp] theorem Chart.frame_plain (styles : List Style) (config : Config) :
    (frame config).IsPlainIn styles :=
  ⟨⟨rfl, rfl⟩, .inr ⟨rfl, .inl rfl⟩⟩

theorem Chart.yTicCommands_plain (styles : List Style) (config : Config)
    (tics : List (TicMark Float)) :
    ∀ command ∈ yTicCommands config tics, command.IsPlainIn styles := by
  simp +contextual [yTicCommands, yTicCommandsAt, or_imp]

theorem Chart.xTicCommands_plain (styles : List Style) (config : Config)
    (tics : List (TicMark Float)) :
    ∀ command ∈ xTicCommands config tics, command.IsPlainIn styles := by
  simp +contextual [xTicCommands, xTicCommandsAt, or_imp]

theorem BarChart.keyCommands_plain (styles : List Style) (chart : BarChart) (plan : BarPlan)
    (config : Config) : ∀ command ∈ chart.keyCommands plan config, command.IsPlainIn styles := by
  simp only [keyCommands, keyCommand, List.mem_append, List.mem_singleton, List.mem_mapIdx]
  rintro command ((rfl | ⟨position, _, rfl⟩) | rfl)
  · simp
  · simp
  · simp

theorem BarChart.seriesCommands_plain (chart : BarChart) (plan : BarPlan) (position : Nat)
    {entry : List Float × Style} (used : entry.2 ∈ plan.styles) :
    ∀ command ∈ chart.seriesCommands plan position entry, command.IsPlainIn plan.styles := by
  intro command member
  have named : NamesStyle plan.styles "[style=" ("[style=" ++ entry.2.name ++ "]") :=
    ⟨entry.2, used, rfl⟩
  simp only [seriesCommands, List.mem_append, List.mem_cons, List.not_mem_nil, or_false]
    at member
  rcases member with rfl | white | (rfl | rfl) | styled | rfl
  · simp
  · exact bars_plain (.inr rfl) command white
  · simp
  · simp
  · exact bars_plain (.inl named) command styled
  · simp

theorem LineChart.lineCommands_plain (chart : LineChart) (plan : LinePlan) (position : Nat)
    {line : List (Float × Float) × Style} (used : line.2 ∈ plan.styles) :
    ∀ command ∈ chart.lineCommands plan position line, command.IsPlainIn plan.styles := by
  intro command member
  have named : NamesStyle plan.styles "[" ("[" ++ line.2.name ++ "]") := ⟨line.2, used, rfl⟩
  simp only [lineCommands, List.mem_cons, List.not_mem_nil, or_false] at member
  rcases member with rfl | rfl | rfl
  · simp
  · cases chart.marked with
    | true => exact ⟨⟨rfl, rfl⟩, named⟩
    | false => exact ⟨⟨rfl, rfl⟩, named⟩
  · simp

/-! ### The legend -/

theorem Legend.sampleCommand_drawn {styles : List Style} (layout : LegendLayout) (sample : Sample)
    (corner : Point) {style : Style} (used : style ∈ styles) :
    (sampleCommand layout sample corner style).IsFlat ∧
      (sampleCommand layout sample corner style).IsDrawnIn styles true := by
  cases sample with
  | box => exact ⟨⟨rfl, rfl⟩, .inl ⟨style, used, rfl⟩⟩
  | line => exact ⟨⟨rfl, rfl⟩, fun _ => ⟨style, used, rfl⟩⟩

/-- Inside the legend everything is flat, and the samples are drawn in the styles of the entries. -/
theorem Legend.commands_drawn {styles : List Style} (legend : Legend) (layout : LegendLayout)
    (used : ∀ entry ∈ legend.entries, entry.2 ∈ styles) :
    ∀ command ∈ legend.commands layout, command.IsFlat ∧ command.IsDrawnIn styles true := by
  intro command member
  obtain ⟨entryCommands, ofEntry, inEntry⟩ := List.mem_flatten.mp member
  obtain ⟨position, bound, same⟩ := List.mem_mapIdx.mp ofEntry
  have isEntry := List.mem_reverse.mp (List.getElem_mem bound)
  rw [← same] at inEntry
  simp only [Legend.entryCommands, List.mem_cons, List.not_mem_nil, or_false] at inEntry
  rcases inEntry with rfl | rfl
  · exact sampleCommand_drawn layout _ _ (used _ isEntry)
  · exact ⟨⟨rfl, rfl⟩, trivial⟩

theorem Legend.drawn_eq (legend : Legend) (config : Config) :
    legend.drawn config = [comment "Legend for the keys"]
      ++ ([openPart ⟨config.legendAnchor.1, config.legendAnchor.2⟩ "[fill=white,draw]"]
        ++ (text Point.origin "" .normalSize "" :: legend.commands config.legend)
        ++ [closePart]) := rfl

/-- The legend is one part, and what stands inside it is drawn in the styles of its entries. -/
theorem Legend.wellDrawn_drawn {styles : List Style} (legend : Legend) (config : Config)
    (used : ∀ entry ∈ legend.entries, entry.2 ∈ styles) :
    WellDrawn styles (legend.drawn config) := by
  have inside : ∀ command ∈ text Point.origin "" .normalSize "" :: legend.commands config.legend,
      command.IsFlat ∧ command.IsDrawnIn styles true := by
    intro command member
    rcases List.mem_cons.mp member with rfl | inLegend
    · exact ⟨⟨rfl, rfl⟩, trivial⟩
    · exact legend.commands_drawn config.legend used command inLegend
  have flat := fun command member => (inside command member).1
  have noneOpened := openings_of_flat flat
  have noneClosed := closings_of_flat flat
  rw [legend.drawn_eq]
  apply WellDrawn.append (WellDrawn.of_plain (by simp))
  constructor
  · exact (Nested.of_flat flat).part _ _
  · have opening : DrawnIn styles 0
        [openPart ⟨config.legendAnchor.1, config.legendAnchor.2⟩ "[fill=white,draw]"] :=
      DrawnIn.singleton trivial
    have closing : DrawnIn styles 1 [closePart] := DrawnIn.singleton trivial
    have atOne : DrawnIn styles 1 _ :=
      DrawnIn.of_flat flat fun command member => (inside command member).2
    apply (opening.append rfl atOne).append _ closing
    rw [openings_append, closings_append, noneOpened, noneClosed]
    rfl

/-! ### Whole charts -/

/-- The legend comes last, if there are labels. -/
def Legend.last (sample : Sample) (labels : List String) (styles : List Style) (config : Config) :
    List DrawCommand :=
  if labels.isEmpty then [] else (Legend.ofLabels sample labels styles).drawn config

theorem WellDrawn.legend {styles : List Style} (sample : Sample) (labels : List String)
    (config : Config) : WellDrawn styles (Legend.last sample labels styles config) := by
  unfold Legend.last
  split
  · exact WellDrawn.nil
  · apply Legend.wellDrawn_drawn
    intro entry member
    exact (List.of_mem_zip member).2

namespace BarChart

variable (chart : BarChart) (plan : BarPlan) (config : Config)

/-- Everything but the legend. -/
def body : List DrawCommand :=
  ([Chart.frame config, blank] ++ Chart.yTicCommands config plan.tics ++ [blank])
    ++ (((chart.series.zip plan.styles).mapIdx (chart.seriesCommands plan)).flatten
      ++ chart.keyCommands plan config)

theorem drawn_eq_body :
    chart.drawn plan config =
      chart.body plan config ++ Legend.last .box chart.legend plan.styles config := by
  simp only [drawn, body, Legend.last, List.append_assoc]

theorem body_plain : ∀ command ∈ chart.body plan config, command.IsPlainIn plan.styles := by
  intro command member
  rcases List.mem_append.mp member with inHead | inRest
  · have headPlain := Chart.yTicCommands_plain plan.styles config plan.tics
    simp only [List.mem_append, List.mem_cons, List.not_mem_nil, or_false] at inHead
    rcases inHead with ((rfl | rfl) | onAxis) | rfl
    · simp
    · simp
    · exact headPlain command onAxis
    · simp
  rcases List.mem_append.mp inRest with inSeries | inKeys
  · obtain ⟨commands, ofSeries, inCommands⟩ := List.mem_flatten.mp inSeries
    obtain ⟨position, bound, rfl⟩ := List.mem_mapIdx.mp ofSeries
    have used := (List.of_mem_zip (List.getElem_mem bound)).2
    exact chart.seriesCommands_plain plan position used command inCommands
  · exact chart.keyCommands_plain _ plan config command inKeys

variable {chart config} in
theorem addition_wellDrawn {addition : Addition}
    (accepted : chart.addition config = .ok addition) :
    WellDrawn addition.styles addition.commands := by
  obtain ⟨plan, _, rfl⟩ := Outcome.map_eq_ok_iff.mp accepted
  dsimp only
  rw [drawn_eq_body]
  exact (WellDrawn.of_plain (chart.body_plain plan config)).append (WellDrawn.legend _ _ _)

end BarChart

namespace LineChart

variable (chart : LineChart) (plan : LinePlan) (config : Config)

/-- Everything but the legend. -/
def body : List DrawCommand :=
  ([Chart.frame config] ++ Chart.yTicCommands config plan.yTics
      ++ Chart.xTicCommands config plan.xTics)
    ++ ((chart.lines.zip plan.styles).mapIdx (chart.lineCommands plan)).flatten

theorem drawn_eq_body :
    chart.drawn plan config =
      chart.body plan config ++ Legend.last .line chart.legend plan.styles config := by
  simp only [drawn, body, Legend.last, List.append_assoc]

theorem body_plain : ∀ command ∈ chart.body plan config, command.IsPlainIn plan.styles := by
  intro command member
  rcases List.mem_append.mp member with inHead | inLines
  · simp only [List.mem_append, List.mem_singleton] at inHead
    rcases inHead with (rfl | onY) | onX
    · simp
    · exact Chart.yTicCommands_plain plan.styles config plan.yTics command onY
    · exact Chart.xTicCommands_plain plan.styles config plan.xTics command onX
  · obtain ⟨commands, ofLine, inCommands⟩ := List.mem_flatten.mp inLines
    obtain ⟨position, bound, rfl⟩ := List.mem_mapIdx.mp ofLine
    have used := (List.of_mem_zip (List.getElem_mem bound)).2
    exact chart.lineCommands_plain plan position used command inCommands

variable {chart config} in
theorem addition_wellDrawn {addition : Addition}
    (accepted : chart.addition config = .ok addition) :
    WellDrawn addition.styles addition.commands := by
  obtain ⟨plan, _, rfl⟩ := Outcome.map_eq_ok_iff.mp accepted
  dsimp only
  rw [drawn_eq_body]
  exact (WellDrawn.of_plain (chart.body_plain plan config)).append (WellDrawn.legend _ _ _)

end LineChart

end TikzChart
