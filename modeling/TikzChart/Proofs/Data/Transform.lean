import TikzChart.Data.Table
import TikzChart.Proofs.Data.DataSet

/-!
Tables under any sequence of transforms, each of which may be refused. `Transform.run` says once
what a transform can do: refuse and leave the table as it is, or change it in one of four ways
(`Table.Change`). Whatever holds of a table after any transforms is proved from these four.
-/

set_option autoImplicit false

namespace TikzChart

/-- What can be done to a table. -/
inductive Transform where
  | normalize (baseline : String)
  | sortBy (name : String)
  | appendAmean (key : String)
  | appendGmean (key : String)
  | ignore (name : String)
deriving DecidableEq, Repr

namespace Transform

def step : Transform → TableStep Unit
  | normalize baseline => TableStep.normalize baseline
  | sortBy name => TableStep.sortBy name
  | appendAmean key => TableStep.appendAmean key
  | appendGmean key => TableStep.appendGmean key
  | ignore name => TableStep.ignore name

/-- The category that a transform appends. -/
def mean? : Transform → Option String
  | appendAmean key => some key
  | appendGmean key => some key
  | _ => none

end Transform

namespace Table

/-- The table after transforms, those that are refused among them. -/
def after (table : Table) (transforms : List Transform) : Table :=
  Step.stateAfter (transforms.map Transform.step) table

/-- The categories that transforms append, in order; a refused transform appends none. -/
def appended (table : Table) : List Transform → List String
  | [] => []
  | transform :: rest =>
    match transform.step.runOn table with
    | (.ok _, next) => transform.mean?.toList ++ next.appended rest
    | (.error _, next) => next.appended rest

/-- Some series has no value for some category. -/
def IsRagged (table : Table) : Prop :=
  ∃ named ∈ table.data.series, ∃ key ∈ table.keys, named.2.contains key = false

/-- A change of a table, and the category that it appends. -/
inductive Change (table : Table) : Option String → Table → Prop
  | divided (base : Series Binary64) :
    table.Change none
      { table with data := table.data.mapSeries fun _ => divideSeries base table.keys }
  | sorted {keys : List String} (perm : keys.Perm table.dataKeys) :
    table.Change none { table with keys := keys ++ table.summaryKeys }
  | summarized {key : String} {summary : List Float → Float} {columns : List (List Binary64)}
    (fresh : key ∉ table.keys) (complete : columns.length = table.data.series.length) :
    table.Change (some key) (table.withSummary key summary columns)
  | ignored (name : String) :
    table.Change none { table with data := table.data.erase name }

/-- Sorting values with their keys rearranges the keys. -/
theorem sortedKeys_perm {keys : List String} {values : List Binary64}
    (complete : values.length = keys.length) :
    (((values.zip keys).mergeSort fun first second =>
      first.1.totalLe second.1).map Prod.snd).Perm keys := by
  have sorted := (List.mergeSort_perm (values.zip keys) fun first second =>
    first.1.totalLe second.1).map Prod.snd
  rw [List.map_snd_zip (Nat.le_of_eq complete.symm)] at sorted
  exact sorted

/-- What a transform of a table does that appends the given category, if any: it is refused and
nothing has changed, or it succeeds. It is refused for a missing value only when one is missing. -/
def Runs (table : Table) (step : TableStep Unit) (mean? : Option String) : Prop :=
  (∃ cause, step.runOn table = (.error cause, table) ∧
    ∀ found, cause = .data found → table.IsRagged) ∨
  ∃ next, step.runOn table = (.ok (), next) ∧ table.Change mean? next

end Table

/-! ### The steps -/

namespace TableStep

variable (table : Table)

theorem run_normalize (baseline : String) : table.Runs (normalize baseline) none := by
  unfold Table.Runs normalize
  rw [Step.runOn_bind_ok (Step.runOn_get table)]
  cases table.data.get? baseline with
  | none => exact .inl ⟨_, rfl, fun _ impossible => nomatch impossible⟩
  | some base =>
      dsimp only
      cases table.keys.find? fun key => (base.get? key).any Binary64.isZero with
      | some key => exact .inl ⟨_, rfl, fun _ impossible => nomatch impossible⟩
      | none => exact .inr ⟨_, rfl, .divided base⟩

theorem run_sortBy (name : String) : table.Runs (sortBy name) none := by
  unfold Table.Runs sortBy
  rw [Step.runOn_bind_ok (Step.runOn_get table)]
  cases present : table.data.get? name with
  | none => exact .inl ⟨_, rfl, fun _ impossible => nomatch impossible⟩
  | some series =>
      dsimp only
      cases listed : series.ordered name table.dataKeys with
      | error cause =>
          refine .inl ⟨.data cause, rfl, fun found _ => ?_⟩
          obtain ⟨key, member, lacking⟩ := Series.lacking_of_ordered_error listed
          exact ⟨(name, series), DataSet.mem_of_get? present, key,
            List.mem_of_mem_take member, lacking⟩
      | ok values =>
          exact .inr ⟨_, rfl, .sorted (Table.sortedKeys_perm (Series.length_ordered listed))⟩

theorem run_appendSummary (key : String) (summary : List Float → Float) :
    table.Runs (appendSummary key summary) (some key) := by
  unfold Table.Runs appendSummary
  rw [Step.runOn_bind_ok (Step.runOn_get table)]
  by_cases nothing : table.dataKeys.isEmpty = true
  · rw [if_pos nothing]
    exact .inl ⟨_, rfl, fun _ impossible => nomatch impossible⟩
  · rw [if_neg nothing]
    by_cases taken : table.keys.contains key = true
    · rw [if_pos taken]
      exact .inl ⟨_, rfl, fun _ impossible => nomatch impossible⟩
    · rw [if_neg taken]
      have fresh : key ∉ table.keys := fun member => taken (List.contains_iff_mem.mpr member)
      cases listed : table.data.aligned table.dataKeys with
      | error cause =>
          refine .inl ⟨.data cause, rfl, fun found _ => ?_⟩
          obtain ⟨named, member, key, inData, lacking⟩ := DataSet.lacking_of_aligned_error listed
          exact ⟨named, member, key, List.mem_of_mem_take inData, lacking⟩
      | ok columns => exact .inr ⟨_, rfl, .summarized fresh (DataSet.length_aligned listed)⟩

theorem run_appendGmean (key : String) : table.Runs (appendGmean key) (some key) := by
  unfold Table.Runs appendGmean
  rw [Step.runOn_bind_ok (Step.runOn_get table)]
  split
  · exact .inl ⟨_, rfl, fun _ impossible => nomatch impossible⟩
  · exact run_appendSummary table key Table.geometricMean

theorem run_ignore (name : String) : table.Runs (ignore name) none := by
  unfold Table.Runs ignore
  rw [Step.runOn_bind_ok (Step.runOn_get table)]
  by_cases absent : (table.data.get? name).isNone = true
  · rw [if_pos absent]
    exact .inl ⟨_, rfl, fun _ impossible => nomatch impossible⟩
  · rw [if_neg absent]
    by_cases single : table.data.size = 1
    · rw [if_pos single]
      exact .inl ⟨_, rfl, fun _ impossible => nomatch impossible⟩
    · rw [if_neg single]
      exact .inr ⟨_, rfl, .ignored name⟩

end TableStep

theorem Transform.run (transform : Transform) (table : Table) :
    table.Runs transform.step transform.mean? := by
  cases transform with
  | normalize baseline => exact TableStep.run_normalize table baseline
  | sortBy name => exact TableStep.run_sortBy table name
  | appendAmean key => exact TableStep.run_appendSummary table key Table.arithmeticMean
  | appendGmean key => exact TableStep.run_appendGmean table key
  | ignore name => exact TableStep.run_ignore table name

/-- A refused transform leaves the table as it is. -/
theorem Transform.unchanged_of_error {transform : Transform} {table : Table} {cause : TableError}
    (refused : (transform.step.runOn table).1 = .error cause) :
    (transform.step.runOn table).2 = table := by
  rcases transform.run table with ⟨found, ran, _⟩ | ⟨next, ran, _⟩
  · rw [ran]
  · rw [ran] at refused
    cases refused

end TikzChart
