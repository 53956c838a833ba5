import TikzChart.Proofs.Data.Transform

/-!
Accepted transforms. `Transform.Gives` says for each transform under which conditions it is accepted
and which table it arrives at; `Transform.accepted_iff` says that the steps do exactly that.
-/

set_option autoImplicit false

namespace TikzChart

namespace Table

/-- The table that is left when every series is divided by one of them. -/
def dividedBy (table : Table) (base : Series Binary64) : Table :=
  { table with data := table.data.mapSeries fun _ => divideSeries base table.keys }

/-- The table with its data categories in the order of the values that stand beside them. -/
def sortedBy (table : Table) (values : List Binary64) : Table :=
  { table with
    keys := ((values.zip table.dataKeys).mergeSort fun first second =>
      first.1.totalLe second.1).map Prod.snd ++ table.summaryKeys }

/-- The first value of any series that has no logarithm. -/
def anyNotPositive? (table : Table) : Option (String × String × Float) :=
  table.data.series.findSome? fun (name, series) =>
    (firstNotPositive? table.keys series).map fun found => (name, found)

end Table

/-- When a transform of a table is accepted, and the table that it arrives at. -/
inductive Transform.Gives (table : Table) : Transform → Table → Prop
  | normalize {baseline : String} {base : Series Binary64}
    (present : table.data.get? baseline = some base)
    (divisible : ∀ key ∈ table.keys, (base.get? key).any Binary64.isZero = false) :
    Gives table (.normalize baseline) (table.dividedBy base)
  | sortBy {name : String} {series : Series Binary64} {values : List Binary64}
    (present : table.data.get? name = some series)
    (listed : series.ordered name table.dataKeys = .ok values) :
    Gives table (.sortBy name) (table.sortedBy values)
  | appendAmean {key : String} {columns : List (List Binary64)} (filled : table.dataKeys ≠ [])
    (fresh : key ∉ table.keys) (listed : table.data.aligned table.dataKeys = .ok columns) :
    Gives table (.appendAmean key) (table.withSummary key Table.arithmeticMean columns)
  | appendGmean {key : String} {columns : List (List Binary64)}
    (positive : table.anyNotPositive? = none) (filled : table.dataKeys ≠ [])
    (fresh : key ∉ table.keys) (listed : table.data.aligned table.dataKeys = .ok columns) :
    Gives table (.appendGmean key) (table.withSummary key Table.geometricMean columns)
  | ignore {name : String} (present : name ∈ table.names) (several : table.data.size ≠ 1) :
    Gives table (.ignore name) { table with data := table.data.erase name }

namespace TableStep

variable {table next : Table}

/-- A division looks at the series to divide by, then at its values. -/
theorem runOn_normalize (table : Table) (baseline : String) :
    (normalize baseline).runOn table =
      match table.data.get? baseline with
      | none => (.error (.baselineAbsent baseline), table)
      | some base =>
        match table.keys.find? fun key => (base.get? key).any Binary64.isZero with
        | some key => (.error (.zeroBaseline baseline key), table)
        | none => (.ok (), table.dividedBy base) := by
  unfold normalize
  rw [Step.runOn_bind_ok (Step.runOn_get table)]
  cases table.data.get? baseline with
  | none => rfl
  | some base =>
      dsimp only
      cases table.keys.find? fun key => (base.get? key).any Binary64.isZero with
      | some key => rfl
      | none => rfl

theorem normalize_accepted_iff {baseline : String} :
    (normalize baseline).runOn table = (.ok (), next) ↔
      (Transform.normalize baseline).Gives table next := by
  rw [runOn_normalize]
  constructor
  · intro ran
    cases present : table.data.get? baseline with
    | none =>
        rw [present] at ran
        cases ran
    | some base =>
        rw [present] at ran
        dsimp only at ran
        cases zero : table.keys.find? fun key => (base.get? key).any Binary64.isZero with
        | some key =>
            rw [zero] at ran
            cases ran
        | none =>
            rw [zero] at ran
            cases ran
            exact .normalize present fun key known =>
              Bool.eq_false_iff.mpr (List.find?_eq_none.mp zero key known)
  · intro gives
    cases gives with
    | normalize present divisible =>
        rw [present]
        dsimp only
        rw [List.find?_eq_none.mpr fun key known => Bool.eq_false_iff.mp (divisible key known)]

theorem sortBy_accepted_iff {name : String} :
    (sortBy name).runOn table = (.ok (), next) ↔ (Transform.sortBy name).Gives table next := by
  unfold sortBy
  rw [Step.runOn_bind_ok (Step.runOn_get table)]
  constructor
  · intro ran
    cases present : table.data.get? name with
    | none =>
        rw [present] at ran
        cases ran
    | some series =>
        rw [present] at ran
        dsimp only at ran
        cases listed : series.ordered name table.dataKeys with
        | error cause =>
            rw [listed] at ran
            cases ran
        | ok values =>
            rw [listed] at ran
            cases ran
            exact .sortBy present listed
  · intro gives
    cases gives with
    | sortBy present listed =>
        rw [present]
        dsimp only
        rw [listed]
        rfl

theorem appendSummary_accepted_iff {key : String} {summary : List Float → Float} :
    (appendSummary key summary).runOn table = (.ok (), next) ↔
      table.dataKeys ≠ [] ∧ key ∉ table.keys ∧
        ∃ columns, table.data.aligned table.dataKeys = .ok columns ∧
          table.withSummary key summary columns = next := by
  unfold appendSummary
  rw [Step.runOn_bind_ok (Step.runOn_get table)]
  by_cases nothing : table.dataKeys.isEmpty = true
  · rw [if_pos nothing]
    exact iff_of_false (fun impossible => nomatch impossible)
      fun all => all.1 (List.isEmpty_iff.mp nothing)
  · rw [if_neg nothing, and_iff_right fun empty => nothing (List.isEmpty_iff.mpr empty)]
    by_cases taken : table.keys.contains key = true
    · rw [if_pos taken]
      exact iff_of_false (fun impossible => nomatch impossible)
        fun all => all.1 (List.contains_iff_mem.mp taken)
    · rw [if_neg taken, and_iff_right fun member => taken (List.contains_iff_mem.mpr member)]
      cases listed : table.data.aligned table.dataKeys with
      | error cause =>
          refine iff_of_false (fun impossible => nomatch impossible) ?_
          rintro ⟨_, impossible, _⟩
          cases impossible
      | ok columns =>
          constructor
          · intro ran
            cases ran
            exact ⟨columns, rfl, rfl⟩
          · rintro ⟨_, same, rfl⟩
            cases same
            rfl

theorem appendAmean_accepted_iff {key : String} :
    (appendAmean key).runOn table = (.ok (), next) ↔
      (Transform.appendAmean key).Gives table next := by
  refine appendSummary_accepted_iff.trans ⟨?_, ?_⟩
  · rintro ⟨filled, fresh, columns, listed, rfl⟩
    exact .appendAmean filled fresh listed
  · intro gives
    cases gives with
    | appendAmean filled fresh listed => exact ⟨filled, fresh, _, listed, rfl⟩

theorem appendGmean_accepted_iff {key : String} :
    (appendGmean key).runOn table = (.ok (), next) ↔
      (Transform.appendGmean key).Gives table next := by
  unfold appendGmean
  rw [Step.runOn_bind_ok (Step.runOn_get table)]
  change (match table.anyNotPositive? with
    | some (name, found, value) => throw (.notPositive name value found)
    | none => appendSummary key Table.geometricMean : TableStep Unit).runOn table = _ ↔ _
  constructor
  · intro ran
    cases positive : table.anyNotPositive? with
    | some found =>
        rw [positive] at ran
        cases ran
    | none =>
        rw [positive] at ran
        obtain ⟨filled, fresh, columns, listed, rfl⟩ := appendSummary_accepted_iff.mp ran
        exact .appendGmean positive filled fresh listed
  · intro gives
    cases gives with
    | appendGmean positive filled fresh listed =>
        rw [positive]
        exact appendSummary_accepted_iff.mpr ⟨filled, fresh, _, listed, rfl⟩

theorem ignore_accepted_iff {name : String} :
    (ignore name).runOn table = (.ok (), next) ↔ (Transform.ignore name).Gives table next := by
  unfold ignore
  rw [Step.runOn_bind_ok (Step.runOn_get table)]
  have present_iff : (table.data.get? name).isNone = true ↔ name ∉ table.names := by
    rw [Option.isNone_iff_eq_none, ← Option.not_isSome_iff_eq_none, DataSet.isSome_get?]
    rfl
  constructor
  · intro ran
    by_cases absent : (table.data.get? name).isNone = true
    · rw [if_pos absent] at ran
      cases ran
    · rw [if_neg absent] at ran
      by_cases single : table.data.size = 1
      · rw [if_pos single] at ran
        cases ran
      · rw [if_neg single] at ran
        cases ran
        exact .ignore (not_not.mp fun missing => absent (present_iff.mpr missing)) single
  · intro gives
    cases gives with
    | ignore present several =>
        rw [if_neg fun absent => present_iff.mp absent present, if_neg several]
        rfl

end TableStep

/-- The steps are accepted under these conditions, and arrive there. -/
theorem Transform.accepted_iff {transform : Transform} {table next : Table} :
    transform.step.runOn table = (.ok (), next) ↔ transform.Gives table next := by
  cases transform with
  | normalize baseline => exact TableStep.normalize_accepted_iff
  | sortBy name => exact TableStep.sortBy_accepted_iff
  | appendAmean key => exact TableStep.appendAmean_accepted_iff
  | appendGmean key => exact TableStep.appendGmean_accepted_iff
  | ignore name => exact TableStep.ignore_accepted_iff

end TikzChart
