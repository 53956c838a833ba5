import Mathlib.Data.List.Induction
import TikzChart.Proofs.Chart.History
import TikzChart.Proofs.Chart.Refusal
import TikzChart.Proofs.Chart.StyleTable
import TikzChart.Proofs.Palette

/-!
How the style table of a chart follows from what has been drawn on it. The table has the styles of
one palette for bars, as many as the largest bar chart took, and those for lines, as many as the
largest line chart took. Hence a bar chart is refused for its styles when an earlier one had another
palette, and a chart that was accepted is accepted again.
-/

set_option autoImplicit false

namespace TikzChart

/-! ### Accepted operations -/

/-- The operation, if it is accepted. -/
def Chart.acceptedNow (chart : Chart) (operation : ChartOperation) : List ChartOperation :=
  if (operation.step.runOn chart).1.isOk then [operation] else []

/-- The operations that are accepted when all are tried in turn. -/
def Chart.accepted (chart : Chart) : List ChartOperation → List ChartOperation
  | [] => []
  | operation :: operations =>
    chart.acceptedNow operation ++ accepted (operation.step.runOn chart).2 operations

/-- The number of series of each bar chart. -/
def barCounts (history : List ChartOperation) : List Nat :=
  history.filterMap fun
    | .bars chart => some chart.series.length
    | _ => none

/-- The number of lines of each line chart. -/
def lineCounts (history : List ChartOperation) : List Nat :=
  history.filterMap fun
    | .lines chart => some chart.lines.length
    | _ => none

/-- The largest number; 0 when there is none. -/
def largest (counts : List Nat) : Nat := counts.foldl max 0

theorem barCounts_append (history later : List ChartOperation) :
    barCounts (history ++ later) = barCounts history ++ barCounts later :=
  List.filterMap_append

theorem lineCounts_append (history later : List ChartOperation) :
    lineCounts (history ++ later) = lineCounts history ++ lineCounts later :=
  List.filterMap_append

theorem largest_concat (counts : List Nat) (count : Nat) :
    largest (counts ++ [count]) = max (largest counts) count :=
  List.foldl_append

theorem le_largest {counts : List Nat} {count : Nat} (member : count ∈ counts) :
    count ≤ largest counts := by
  induction counts using List.reverseRecOn with
  | nil => cases member
  | append_singleton counts last ih =>
      rw [largest_concat]
      rcases List.mem_append.mp member with before | isLast
      · exact Nat.le_trans (ih before) (Nat.le_max_left _ _)
      · rw [List.mem_singleton.mp isLast]
        exact Nat.le_max_right _ _

theorem mem_take_max {α : Type} {entries : List α} {count other : Nat} {entry : α} :
    entry ∈ entries.take (max count other) ↔
      entry ∈ entries.take count ∨ entry ∈ entries.take other := by
  rcases Nat.le_total count other with le | le
  · rw [Nat.max_eq_right le]
    exact ⟨.inr, fun either => either.elim (fun first => List.take_subset_take_left _ le first) id⟩
  · rw [Nat.max_eq_left le]
    exact ⟨.inl, fun either => either.elim id fun first => List.take_subset_take_left _ le first⟩

theorem Palette.agree_take (palette : Palette) (count : Nat) :
    Style.Agree (palette.styles.take count) (palette.styles.take count) :=
  fun _ member _ otherMember named => Palette.eq_of_name_eq (List.mem_of_mem_take otherMember)
    (List.mem_of_mem_take member) named

/-! ### The table of a history -/

/-- The styles of a table are those that the accepted operations took, with one palette for bars. -/
structure StyledBy (palette : Palette) (history : List ChartOperation) (table : List Style) :
    Prop where
  isBars : palette ≠ .lines
  selected : ∀ count ∈ barCounts history, Palette.forBars count = palette
  someSeries : ∀ count ∈ barCounts history, 0 < count
  barsWithin : largest (barCounts history) ≤ palette.capacity
  linesWithin : largest (lineCounts history) ≤ Palette.lines.capacity
  styles : ∀ style, style ∈ table ↔
    style ∈ palette.styles.take (largest (barCounts history)) ∨
      style ∈ Palette.lines.styles.take (largest (lineCounts history))

namespace StyledBy

variable {palette : Palette} {history : List ChartOperation} {table : List Style}
  (styled : StyledBy palette history table)

include styled

/-- An operation without series changes nothing. -/
theorem append {later : List ChartOperation} (noBars : barCounts later = [])
    (noLines : lineCounts later = []) : StyledBy palette (history ++ later) table := by
  have bars : barCounts (history ++ later) = barCounts history := by
    rw [barCounts_append, noBars, List.append_nil]
  have lines : lineCounts (history ++ later) = lineCounts history := by
    rw [lineCounts_append, noLines, List.append_nil]
  exact
    { isBars := styled.isBars
      selected := bars ▸ styled.selected
      someSeries := bars ▸ styled.someSeries
      barsWithin := bars ▸ styled.barsWithin
      linesWithin := lines ▸ styled.linesWithin
      styles := by rw [bars, lines]; exact styled.styles }

/-- The styles of a palette have no other meaning, unless bars were drawn with another one. -/
theorem agree {drawn : Palette} (same : drawn ≠ .lines → barCounts history ≠ [] → drawn = palette)
    (count : Nat) : Style.Agree table (drawn.styles.take count) := by
  intro style member other otherMember named
  have sameIn {taken : Palette} {size : Nat} (within : other ∈ taken.styles.take size)
      (equal : drawn = taken) : other = style := by
    cases equal
    exact Palette.eq_of_name_eq (List.mem_of_mem_take within) (List.mem_of_mem_take member) named
  rcases (styled.styles other).mp otherMember with bar | line
  · have stems := Palette.stem_eq_of_name_eq bar member named
    rw [Palette.stem_of_bars styled.isBars] at stems
    have notLines : drawn ≠ .lines := by
      rintro rfl
      exact absurd stems (by decide)
    have someBars : barCounts history ≠ [] := by
      intro none
      rw [none] at bar
      cases bar
    exact sameIn bar (same notLines someBars)
  · have stems := Palette.stem_eq_of_name_eq line member named
    refine sameIn line ?_
    by_contra notLines
    rw [Palette.stem_of_bars notLines] at stems
    exact absurd stems (by decide)

theorem agree_lines (count : Nat) : Style.Agree table (Palette.lines.styles.take count) :=
  styled.agree (fun notLines => absurd rfl notLines) count

theorem agree_bars {count : Nat}
    (same : ∀ earlier ∈ barCounts history, Palette.forBars earlier = Palette.forBars count) :
    Style.Agree table ((Palette.forBars count).styles.take count) := by
  refine styled.agree (fun _ someBars => ?_) count
  obtain ⟨earlier, member⟩ := List.exists_mem_of_ne_nil _ someBars
  exact (same earlier member).symm.trans (styled.selected earlier member)

/-- Two palettes for bars cannot both be used, as they give the first name two meanings. -/
theorem selected_of_first {drawn : Palette} (isBars : drawn ≠ .lines)
    (free : ∀ other ∈ table, other.name = drawn.first.name → other = drawn.first) :
    ∀ earlier ∈ barCounts history, Palette.forBars earlier = drawn := by
  intro earlier member
  have some : 0 < largest (barCounts history) :=
    Nat.lt_of_lt_of_le (styled.someSeries earlier member) (le_largest member)
  obtain ⟨rest, taken⟩ := @Palette.take_styles palette _ some
  have inTable : palette.first ∈ table :=
    (styled.styles _).mpr (.inl (taken ▸ List.mem_cons_self))
  have named : palette.first.name = drawn.first.name := by
    rw [Palette.name_first_of_bars styled.isBars, Palette.name_first_of_bars isBars]
  rw [styled.selected earlier member]
  exact Palette.eq_of_first (free _ inTable named)

theorem selected_of_agree {count : Nat} (some : 0 < count)
    (agree : Style.Agree table ((Palette.forBars count).styles.take count)) :
    ∀ earlier ∈ barCounts history, Palette.forBars earlier = Palette.forBars count := by
  obtain ⟨rest, taken⟩ := @Palette.take_styles (Palette.forBars count) _ some
  rw [taken] at agree
  exact styled.selected_of_first (Palette.forBars_ne_lines count) (agree _ List.mem_cons_self)

/-- The numbers of the styles. -/
theorem exists_named_iff (other : Palette) (number : Nat) :
    (∃ style ∈ table, style.name = other.stem ++ "-" ++ toString number) ↔
      palette.stem = other.stem ∧ 1 ≤ number ∧ number ≤ largest (barCounts history) ∨
        Palette.lines.stem = other.stem ∧ 1 ≤ number ∧ number ≤ largest (lineCounts history) := by
  rw [← Palette.exists_named_iff styled.barsWithin, ← Palette.exists_named_iff styled.linesWithin,
    ← exists_or]
  refine exists_congr fun style => ?_
  rw [styled.styles, or_and_right]

theorem bar_named_iff (number : Nat) :
    (∃ style ∈ table, style.name = "bar-style-" ++ toString number) ↔
      1 ≤ number ∧ number ≤ largest (barCounts history) := by
  have either := styled.exists_named_iff .bars number
  rw [Palette.stem_of_bars styled.isBars] at either
  simpa [Palette.stem] using either

theorem line_named_iff (number : Nat) :
    (∃ style ∈ table, style.name = "line-style-" ++ toString number) ↔
      1 ≤ number ∧ number ≤ largest (lineCounts history) := by
  have either := styled.exists_named_iff .lines number
  rw [Palette.stem_of_bars styled.isBars] at either
  simpa [Palette.stem] using either

/-! #### Drawing -/

theorem draw_lines {lines : LineChart} (within : lines.lines.length ≤ Palette.lines.capacity) :
    StyledBy palette (history ++ [.lines lines])
      (Style.addMissing table (Palette.lines.styles.take lines.lines.length)) := by
  have bars : barCounts (history ++ [.lines lines]) = barCounts history := by
    rw [barCounts_append]
    exact List.append_nil _
  have counts : lineCounts (history ++ [.lines lines]) =
      lineCounts history ++ [lines.lines.length] := lineCounts_append _ _
  exact
    { isBars := styled.isBars
      selected := bars ▸ styled.selected
      someSeries := bars ▸ styled.someSeries
      barsWithin := bars ▸ styled.barsWithin
      linesWithin := by
        rw [counts, largest_concat]
        exact Nat.max_le.mpr ⟨styled.linesWithin, within⟩
      styles := by
        intro style
        rw [bars, counts, largest_concat, mem_take_max,
          Style.mem_addMissing (styled.agree_lines _) (Palette.agree_take _ _), styled.styles,
          or_assoc] }

/-- Before the first bars any palette for bars will do. -/
theorem change_palette {drawn : Palette} (isBars : drawn ≠ .lines)
    (selected : ∀ count ∈ barCounts history, Palette.forBars count = drawn) :
    StyledBy drawn history table := by
  by_cases none : barCounts history = []
  · have nothing : largest (barCounts history) = 0 := by
      rw [none]
      rfl
    refine
      { isBars, selected
        someSeries := styled.someSeries
        barsWithin := nothing ▸ Nat.zero_le _
        linesWithin := styled.linesWithin
        styles := fun style => ?_ }
    rw [styled.styles, nothing, List.take_zero, List.take_zero]
  · obtain ⟨earlier, member⟩ := List.exists_mem_of_ne_nil _ none
    have same : palette = drawn :=
      (styled.selected earlier member).symm.trans (selected earlier member)
    exact same ▸ styled

theorem draw_bars {bars : BarChart} (some : 0 < bars.series.length)
    (within : bars.series.length ≤ (Palette.forBars bars.series.length).capacity)
    (agree : Style.Agree table
      ((Palette.forBars bars.series.length).styles.take bars.series.length)) :
    StyledBy (Palette.forBars bars.series.length) (history ++ [.bars bars])
      (Style.addMissing table
        ((Palette.forBars bars.series.length).styles.take bars.series.length)) := by
  have counts : barCounts (history ++ [.bars bars]) =
      barCounts history ++ [bars.series.length] := barCounts_append _ _
  have lines : lineCounts (history ++ [.bars bars]) = lineCounts history := by
    rw [lineCounts_append]
    exact List.append_nil _
  have before : StyledBy (Palette.forBars bars.series.length) history table :=
    styled.change_palette (Palette.forBars_ne_lines _) (styled.selected_of_agree some agree)
  exact
    { isBars := before.isBars
      selected := by
        rw [counts]
        exact List.forall_mem_append.mpr ⟨before.selected, List.forall_mem_singleton.mpr rfl⟩
      someSeries := by
        rw [counts]
        exact List.forall_mem_append.mpr ⟨before.someSeries, List.forall_mem_singleton.mpr some⟩
      barsWithin := by
        rw [counts, largest_concat]
        exact Nat.max_le.mpr ⟨before.barsWithin, within⟩
      linesWithin := lines ▸ before.linesWithin
      styles := by
        intro style
        rw [lines, counts, largest_concat, mem_take_max,
          Style.mem_addMissing agree (Palette.agree_take _ _), before.styles, or_right_comm] }

end StyledBy

/-! ### All operations -/

theorem BarChart.styles_of_addition {bars : BarChart} {config : Config} {addition : Addition}
    (accepted : bars.addition config = .ok addition) :
    0 < bars.series.length ∧
      bars.series.length ≤ (Palette.forBars bars.series.length).capacity ∧
      (Palette.forBars bars.series.length).styles.take bars.series.length = addition.styles := by
  obtain ⟨plan, isPlan, rfl⟩ := Outcome.map_eq_ok_iff.mp accepted
  have planned := planned_of_plan isPlan
  exact ⟨List.length_pos_iff.mpr planned.someSeries, Palette.assign_eq_ok_iff.mp planned.styles⟩

theorem LineChart.styles_of_addition {lines : LineChart} {config : Config} {addition : Addition}
    (accepted : lines.addition config = .ok addition) :
    lines.lines.length ≤ Palette.lines.capacity ∧
      Palette.lines.styles.take lines.lines.length = addition.styles := by
  obtain ⟨plan, isPlan, rfl⟩ := Outcome.map_eq_ok_iff.mp accepted
  exact Palette.assign_eq_ok_iff.mp (planned_of_plan isPlan).styles

namespace Chart

variable {chart : Chart} {operation : ChartOperation}

theorem acceptedNow_of_ok {after : Chart}
    (accepted : operation.step.runOn chart = (.ok (), after)) :
    chart.acceptedNow operation = [operation] := by
  unfold acceptedNow
  rw [accepted]
  rfl

theorem acceptedNow_of_error {cause : ChartError} {after : Chart}
    (refused : operation.step.runOn chart = (.error cause, after)) :
    chart.acceptedNow operation = [] := by
  unfold acceptedNow
  rw [refused]
  rfl

end Chart

/-- One operation and what it does to the history and to the table. -/
theorem StyledBy.step {palette : Palette} {history : List ChartOperation} {chart : Chart}
    (styled : StyledBy palette history chart.canvas.styles)
    (distinct : (chart.canvas.styles.map Style.name).Nodup) (operation : ChartOperation) :
    ∃ selected, StyledBy selected (history ++ chart.acceptedNow operation)
      (operation.step.runOn chart).2.canvas.styles := by
  cases operation with
  | configure change => exact ⟨palette, styled.append rfl rfl⟩
  | setScale scale => exact ⟨palette, styled.append rfl rfl⟩
  | title content placement => exact ⟨palette, styled.append rfl rfl⟩
  | xLabel content placement => exact ⟨palette, styled.append rfl rfl⟩
  | yLabel content placement => exact ⟨palette, styled.append rfl rfl⟩
  | bars bars =>
      have ran : (ChartOperation.bars bars).step.runOn chart = _ := bars.runOn_draw chart
      rcases Addition.drawOn_cases (bars.addition chart.config) chart with
        ⟨cause, drawn⟩ | ⟨addition, isPlanned, free, drawn⟩
      · rw [drawn] at ran
        rw [Chart.acceptedNow_of_error ran, ran]
        exact ⟨palette, styled.append rfl rfl⟩
      · rw [drawn] at ran
        obtain ⟨some, within, styles⟩ := BarChart.styles_of_addition isPlanned
        have agree := (Chart.find?_isTaken_eq_none_iff distinct).mp free
        rw [← styles] at agree ran
        rw [Chart.acceptedNow_of_ok ran, ran]
        exact ⟨_, styled.draw_bars some within agree⟩
  | lines lines =>
      have ran : (ChartOperation.lines lines).step.runOn chart = _ := lines.runOn_draw chart
      rcases Addition.drawOn_cases (lines.addition chart.config) chart with
        ⟨cause, drawn⟩ | ⟨addition, isPlanned, _, drawn⟩
      · rw [drawn] at ran
        rw [Chart.acceptedNow_of_error ran, ran]
        exact ⟨palette, styled.append rfl rfl⟩
      · rw [drawn] at ran
        obtain ⟨within, styles⟩ := LineChart.styles_of_addition isPlanned
        rw [← styles] at ran
        rw [Chart.acceptedNow_of_ok ran, ran]
        exact ⟨palette, styled.draw_lines within⟩

theorem StyledBy.run {palette : Palette} {history : List ChartOperation} {chart : Chart}
    (styled : StyledBy palette history chart.canvas.styles) (sound : chart.IsSound)
    (operations : List ChartOperation) :
    ∃ selected, StyledBy selected (history ++ chart.accepted operations)
      (chart.after operations).canvas.styles := by
  induction operations generalizing palette history chart with
  | nil =>
      unfold Chart.accepted
      rw [List.append_nil]
      exact ⟨palette, styled⟩
  | cons operation operations ih =>
      obtain ⟨selected, next⟩ := styled.step sound.distinct operation
      unfold Chart.accepted
      rw [← List.append_assoc]
      exact ih next (sound.step (operation.grows chart))

/-- The styles of a chart follow from the operations that it accepted. -/
theorem Chart.styledBy_after (config : Config) (operations : List ChartOperation) :
    ∃ palette, StyledBy palette (({ config } : Chart).accepted operations)
      (({ config } : Chart).after operations).canvas.styles := by
  have start : StyledBy .bars [] ({ config } : Chart).canvas.styles :=
    { isBars := by decide
      selected := nofun
      someSeries := nofun
      barsWithin := Nat.zero_le _
      linesWithin := Nat.zero_le _
      styles := fun style =>
        iff_of_false List.not_mem_nil (by simp [barCounts, lineCounts, largest]) }
  exact start.run (Chart.sound_after config []) operations

/-! ### Refused and repeated charts -/

/-- Bars that can be laid out are drawn exactly when all bars so far were drawn with their palette.
-/
theorem StyledBy.outcome_of_plan {palette : Palette} {history : List ChartOperation} {chart : Chart}
    (styled : StyledBy palette history chart.canvas.styles)
    (distinct : (chart.canvas.styles.map Style.name).Nodup) {bars : BarChart} {plan : BarPlan}
    (isPlan : bars.plan chart.config = .ok plan) :
    (bars.draw.runOn chart).1 =
      if ∃ count ∈ barCounts history, Palette.forBars count ≠ Palette.forBars bars.series.length
      then .error (.data (.duplicateStyle "bar-style-1")) else .ok () := by
  let drawn := Palette.forBars bars.series.length
  have isPlanned : bars.addition chart.config = .ok _ :=
    Outcome.map_eq_ok_iff.mpr ⟨plan, isPlan, rfl⟩
  obtain ⟨some, _, styles⟩ := BarChart.styles_of_addition isPlanned
  have isBars : drawn ≠ .lines := Palette.forBars_ne_lines _
  rw [bars.runOn_draw, isPlanned]
  unfold Addition.drawOn
  dsimp only at styles ⊢
  rw [← styles]
  split_ifs with clash
  · obtain ⟨count, member, differs⟩ := clash
    obtain ⟨rest, taken⟩ := @Palette.take_styles drawn _ some
    have isTaken : Chart.isTaken chart.canvas drawn.first = true := by
      by_contra free
      rw [Bool.not_eq_true, Chart.isTaken_eq_false_iff distinct] at free
      exact differs (styled.selected_of_first isBars free count member)
    rw [taken, List.find?_cons_of_pos isTaken]
    dsimp only
    rw [Palette.name_first_of_bars isBars]
  · have same : ∀ count ∈ barCounts history, Palette.forBars count = drawn := by
      intro count member
      by_contra differs
      exact clash ⟨count, member, differs⟩
    rw [(Chart.find?_isTaken_eq_none_iff distinct).mpr (styled.agree_bars same)]

theorem StyledBy.lines_not_duplicate {palette : Palette} {history : List ChartOperation}
    {chart : Chart} (styled : StyledBy palette history chart.canvas.styles)
    (distinct : (chart.canvas.styles.map Style.name).Nodup) (lines : LineChart) (name : String) :
    (lines.draw.runOn chart).1 ≠ .error (.data (.duplicateStyle name)) := by
  rw [lines.runOn_draw]
  unfold Addition.drawOn
  cases isPlanned : lines.addition chart.config with
  | error cause =>
      intro same
      cases same
      exact (LineChart.plan_refusal (Outcome.map_eq_error_iff.mp isPlanned)).2 name rfl
  | ok addition =>
      obtain ⟨_, styles⟩ := LineChart.styles_of_addition isPlanned
      dsimp only
      rw [← styles, (Chart.find?_isTaken_eq_none_iff distinct).mpr (styled.agree_lines _)]
      nofun

theorem BarChart.draw_again {bars : BarChart} {chart once : Chart}
    (distinct : (chart.canvas.styles.map Style.name).Nodup)
    (accepted : bars.draw.runOn chart = (.ok (), once)) :
    ∃ added, once.canvas.commands = chart.canvas.commands ++ added ∧
      bars.draw.runOn once = (.ok (), { once with canvas := once.canvas.append added }) := by
  rw [bars.runOn_draw] at accepted ⊢
  refine Addition.drawOn_again distinct ?_ ?_ accepted
  · intro planned isPlanned
    rw [← (styles_of_addition isPlanned).2.2]
    exact Palette.agree_take _ _
  · intro planned isPlanned
    obtain ⟨plan, _, rfl⟩ := Outcome.map_eq_ok_iff.mp isPlanned
    -- nothing in the layout depends on the place of the label that bars move
    exact (rfl : bars.addition (bars.clearKeys chart.config) = bars.addition chart.config)

theorem LineChart.draw_again {lines : LineChart} {chart once : Chart}
    (distinct : (chart.canvas.styles.map Style.name).Nodup)
    (accepted : lines.draw.runOn chart = (.ok (), once)) :
    ∃ added, once.canvas.commands = chart.canvas.commands ++ added ∧
      lines.draw.runOn once = (.ok (), { once with canvas := once.canvas.append added }) := by
  rw [lines.runOn_draw] at accepted ⊢
  refine Addition.drawOn_again distinct ?_ ?_ accepted
  · intro planned isPlanned
    rw [← (styles_of_addition isPlanned).2]
    exact Palette.agree_take _ _
  · intro planned isPlanned
    obtain ⟨plan, _, rfl⟩ := Outcome.map_eq_ok_iff.mp isPlanned
    rfl

/-- At every moment the styles for bars are numbered up to the largest bar chart that was accepted
and all come from one palette, and those for lines are numbered up to the largest line chart. Bars
that can be laid out are refused exactly when earlier ones had another palette, lines are never
refused for a style, and an accepted chart can be repeated. -/
theorem styles_follow_accepted_charts (config : Config) (operations : List ChartOperation) :
    let chart := ({ config } : Chart).after operations
    let bars := barCounts (({ config } : Chart).accepted operations)
    let lines := lineCounts (({ config } : Chart).accepted operations)
    ((chart.canvas.styles.map Style.name).Nodup ∧
      (∀ number, (∃ style ∈ chart.canvas.styles, style.name = "bar-style-" ++ toString number) ↔
        1 ≤ number ∧ number ≤ largest bars) ∧
      (∀ number, (∃ style ∈ chart.canvas.styles, style.name = "line-style-" ++ toString number) ↔
        1 ≤ number ∧ number ≤ largest lines) ∧
      ∃ palette : Palette, palette ≠ .lines ∧
        (∀ count ∈ bars, Palette.forBars count = palette) ∧
        ∀ style ∈ chart.canvas.styles, ∃ position,
          style.name = "bar-style-" ++ toString (position + 1) ∧
            palette.directives[position]? = some style.directive ∨
          style.name = "line-style-" ++ toString (position + 1) ∧
            Palette.lines.directives[position]? = some style.directive) ∧
    (∀ (wanted : BarChart) (plan : BarPlan), wanted.plan chart.config = .ok plan →
      (wanted.draw.runOn chart).1 =
        if ∃ count ∈ bars, Palette.forBars count ≠ Palette.forBars wanted.series.length
        then .error (.data (.duplicateStyle "bar-style-1")) else .ok ()) ∧
    (∀ (wanted : LineChart) (name : String),
      (wanted.draw.runOn chart).1 ≠ .error (.data (.duplicateStyle name))) ∧
    (∀ (wanted : BarChart) (once : Chart), wanted.draw.runOn chart = (.ok (), once) →
      ∃ added, once.canvas.commands = chart.canvas.commands ++ added ∧
        wanted.draw.runOn once = (.ok (), { once with canvas := once.canvas.append added })) ∧
    (∀ (wanted : LineChart) (once : Chart), wanted.draw.runOn chart = (.ok (), once) →
      ∃ added, once.canvas.commands = chart.canvas.commands ++ added ∧
        wanted.draw.runOn once = (.ok (), { once with canvas := once.canvas.append added })) := by
  intro chart bars lines
  obtain ⟨palette, styled⟩ := Chart.styledBy_after config operations
  have distinct : (chart.canvas.styles.map Style.name).Nodup :=
    (Chart.sound_after config operations).distinct
  refine ⟨⟨distinct, styled.bar_named_iff, styled.line_named_iff, palette, styled.isBars,
      styled.selected, ?_⟩, fun wanted plan isPlan => styled.outcome_of_plan distinct isPlan,
    styled.lines_not_duplicate distinct, fun wanted once => BarChart.draw_again distinct,
    fun wanted once => LineChart.draw_again distinct⟩
  · intro style member
    rcases (styled.styles style).mp member with bar | line
    · obtain ⟨position, _, named, found⟩ := Palette.mem_take_styles.mp bar
      rw [Palette.stem_of_bars styled.isBars] at named
      exact ⟨position, .inl ⟨named, found⟩⟩
    · obtain ⟨position, _, named, found⟩ := Palette.mem_take_styles.mp line
      exact ⟨position, .inr ⟨named, found⟩⟩

/-- Two series, a line that has no range, and three series. -/
def growingChart : List ChartOperation :=
  [.bars (twoCategories [[1, 2], [3, 4]]), .lines lineAtOrigin,
    .bars (twoCategories [[1, 2], [3, 4], [5, 6]])]

theorem third_series_refused_and_two_repeated :
    barCounts (({} : Chart).accepted growingChart) = [2] ∧
    (∃ plan, (twoCategories [[1, 2], [3, 4], [5, 6]]).plan
      (({} : Chart).after growingChart).config = .ok plan) ∧
    ((twoCategories [[1, 2], [3, 4], [5, 6]]).draw.runOn (({} : Chart).after growingChart)).1 =
      .error (.data (.duplicateStyle "bar-style-1")) ∧
    ∃ once added,
      (twoCategories [[1, 2], [3, 4]]).draw.runOn (({} : Chart).after growingChart) =
        (.ok (), once) ∧
      (twoCategories [[1, 2], [3, 4]]).draw.runOn once =
        (.ok (), { once with canvas := once.canvas.append added }) := by
  have counts : barCounts (({} : Chart).accepted growingChart) = [2] := by decide +kernel
  have canPlan : ((twoCategories [[1, 2], [3, 4], [5, 6]]).plan
      (({} : Chart).after growingChart).config).isOk = true := by decide +kernel
  have drawn : ((twoCategories [[1, 2], [3, 4]]).draw.runOn
      (({} : Chart).after growingChart)).1 = .ok () := by decide +kernel
  obtain ⟨_, onBars, _, onceMore, _⟩ := styles_follow_accepted_charts {} growingChart
  obtain ⟨added, _, again⟩ := onceMore _ _ (Step.runOn_of_outcome drawn)
  cases planned : (twoCategories [[1, 2], [3, 4], [5, 6]]).plan
      (({} : Chart).after growingChart).config with
  | error cause =>
      rw [planned] at canPlan
      cases canPlan
  | ok plan =>
      have outcome := onBars _ plan planned
      rw [counts, if_pos ⟨2, List.mem_cons_self, by decide⟩] at outcome
      exact ⟨counts, ⟨plan, rfl⟩, outcome, _, added, Step.runOn_of_outcome drawn, again⟩

end TikzChart
