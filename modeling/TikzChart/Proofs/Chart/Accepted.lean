import TikzChart.Proofs.Chart.Drawn
import TikzChart.Proofs.Palette
import TikzChart.Proofs.Picture.Selection

/-!
Accepted charts. A drawing that succeeds appends what its plan says: a flat body and, if there are
labels, the legend behind it, which is the only part.
-/

set_option autoImplicit false

namespace TikzChart

open DrawCommand

/-- The options that show the style of the series at a position, counted from 0. -/
def Sample.options : Sample → Nat → String
  | .box, position => "[style=bar-style-" ++ toString (position + 1) ++ "]"
  | .line, position => "[line-style-" ++ toString (position + 1) ++ "]"

theorem Sample.options_box (position : Nat) :
    "[style=" ++ ("bar-style" ++ "-" ++ toString (position + 1)) ++ "]" =
      options .box position := by
  rw [← String.append_assoc, ← String.append_assoc]
  rfl

theorem Sample.options_line (position : Nat) :
    "[" ++ ("line-style" ++ "-" ++ toString (position + 1)) ++ "]" = options .line position := by
  rw [← String.append_assoc, ← String.append_assoc]
  rfl

/-- A selection from the commands of all series, which depend on their styles by name only. -/
theorem filter_zip_of_assign {α : Type} {palette : Palette} {entries : List α} {styles : List Style}
    (assigned : palette.assign entries.length = .ok styles) {keeps : DrawCommand → Bool}
    (commands : Nat → α × Style → List DrawCommand) (kept : Nat → α → String → List DrawCommand)
    (each : ∀ position entry,
      (commands position entry).filter keeps = kept position entry.1 entry.2.name) :
    ((entries.zip styles).mapIdx commands).flatten.filter keeps =
      (entries.mapIdx fun position entry =>
        kept position entry (palette.stem ++ "-" ++ toString (position + 1))).flatten := by
  rw [filter_flatten_mapIdx]
  simp only [each]
  rw [Palette.mapIdx_zip_of_assign assigned kept]

/-! ### The legend behind a body -/

namespace Legend

/-- What stands inside the part of a legend. -/
def content (legend : Legend) (layout : LegendLayout) : List DrawCommand :=
  text Point.origin "" .normalSize "" :: legend.commands layout

theorem content_flat (legend : Legend) (layout : LegendLayout) :
    ∀ command ∈ legend.content layout, command.IsFlat := by
  intro command member
  rcases List.mem_cons.mp member with rfl | inEntries
  · exact ⟨rfl, rfl⟩
  · have used : ∀ entry ∈ legend.entries, entry.2 ∈ legend.entries.map Prod.snd :=
      fun entry isEntry => List.mem_map_of_mem isEntry
    exact (legend.commands_drawn layout used command inEntries).1

variable {body : List DrawCommand} (flat : ∀ command ∈ body, command.IsFlat)
  (sample : Sample) {labels : List String} (styles : List Style) (config : Config)

theorem append_last (someLabels : labels ≠ []) :
    body ++ last sample labels styles config =
      (body ++ [comment "Legend for the keys"])
        ++ ([openPart ⟨config.legendAnchor.1, config.legendAnchor.2⟩ "[fill=white,draw]"]
          ++ (ofLabels sample labels styles).content config.legend ++ [closePart]) := by
  rw [last, if_neg (by simpa using someLabels), drawn_eq, ← List.append_assoc]
  rfl

include flat

theorem flat_with_note :
    ∀ command ∈ body ++ [comment "Legend for the keys"], command.IsFlat := by
  intro command member
  rcases List.mem_append.mp member with inBody | isNote
  · exact flat command inBody
  · rw [List.mem_singleton.mp isNote]
    exact ⟨rfl, rfl⟩

theorem outsideParts_append_last :
    outsideParts (body ++ last sample labels styles config) =
      body ++ if labels.isEmpty then [] else [comment "Legend for the keys"] := by
  cases labels with
  | nil =>
      change outsideParts (body ++ []) = body ++ []
      rw [List.append_nil, outsideParts_of_flat flat]
  | cons label labels =>
      rw [append_last sample styles config (List.cons_ne_nil label labels)]
      exact outsideParts_append_part (flat_with_note flat) (content_flat _ _) _ _

theorem insideParts_append_last :
    insideParts (body ++ last sample labels styles config) =
      if labels.isEmpty then [] else (ofLabels sample labels styles).content config.legend := by
  cases labels with
  | nil =>
      change insideParts (body ++ []) = []
      rw [List.append_nil, insideParts_of_flat flat]
  | cons label labels =>
      rw [append_last sample styles config (List.cons_ne_nil label labels)]
      exact insideParts_append_part (flat_with_note flat) (content_flat _ _) _ _

end Legend

theorem Chart.length_eq_of_checkLegend {labels : List String} {series : Nat}
    (checked : checkLegend labels.length series = .ok ()) (someLabels : labels ≠ []) :
    labels.length = series := by
  unfold checkLegend at checked
  split at checked
  · cases checked
  · next noMismatch =>
      by_contra differs
      exact noMismatch ⟨List.length_pos_iff.mpr someLabels, differs⟩

/-! ### What an accepted drawing appends -/

theorem Step.runOn_of_ok {ε σ α : Type} {step : Step ε σ α} {start : σ} {value : α}
    (finishes : (step.runOn start).1 = .ok value) :
    step.runOn start = (.ok value, (step.runOn start).2) := Prod.ext finishes rfl

theorem Addition.commands_of_drawOn {planned : Except ChartError Addition} {start final : Chart}
    (accepted : drawOn planned start = (.ok (), final)) :
    ∃ addition, planned = .ok addition ∧
      final.canvas.commands = start.canvas.commands ++ addition.commands := by
  rcases drawOn_cases planned start with ⟨cause, refused⟩ | ⟨addition, isAddition, _, drawn⟩
  · rw [refused] at accepted
    cases accepted
  · rw [drawn] at accepted
    cases accepted
    exact ⟨addition, isAddition, rfl⟩

theorem BarChart.planned_of_draw {chart : BarChart} {start final : Chart}
    (accepted : chart.draw.runOn start = (.ok (), final)) :
    ∃ plan, chart.Planned start.config plan ∧
      final.canvas.commands = start.canvas.commands ++ (chart.body plan start.config
        ++ Legend.last .box chart.legend plan.styles start.config) := by
  rw [chart.runOn_draw start] at accepted
  obtain ⟨addition, isAddition, appended⟩ := Addition.commands_of_drawOn accepted
  obtain ⟨plan, isPlan, rfl⟩ := Outcome.map_eq_ok_iff.mp isAddition
  exact ⟨plan, planned_of_plan isPlan, appended.trans (by rw [drawn_eq_body])⟩

theorem LineChart.planned_of_draw {chart : LineChart} {start final : Chart}
    (accepted : chart.draw.runOn start = (.ok (), final)) :
    ∃ plan, chart.Planned start.config plan ∧
      final.canvas.commands = start.canvas.commands ++ (chart.body plan start.config
        ++ Legend.last .line chart.legend plan.styles start.config) := by
  rw [chart.runOn_draw start] at accepted
  obtain ⟨addition, isAddition, appended⟩ := Addition.commands_of_drawOn accepted
  obtain ⟨plan, isPlan, rfl⟩ := Outcome.map_eq_ok_iff.mp isAddition
  exact ⟨plan, planned_of_plan isPlan, appended.trans (by rw [drawn_eq_body])⟩

end TikzChart
