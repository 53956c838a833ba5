import TikzChart.Proofs.Data.Plotting

/-!
Lines of rearranged tables. Sorting the data categories and appending means leave every series its
values under the data categories (`Rearranges`). That is all that lines at different numbers depend
on: points that are sorted by their positions come in one order only.
-/

set_option autoImplicit false

namespace TikzChart

open LinePoints

/-- The transforms that sort the categories or append a mean to them. -/
def Transform.rearranges : Transform → Bool
  | .sortBy _ => true
  | .appendAmean _ => true
  | .appendGmean _ => true
  | .normalize _ => false
  | .ignore _ => false

namespace Table

variable {table next : Table}

/-- What every series has under the data categories, and nothing else of it. -/
def dataColumns (table : Table) : List (String → Option Binary64) :=
  table.data.series.map fun named key => if key ∈ table.dataKeys then named.2.get? key else none

/-- The other table has the same data categories, in some order, and the same values under them. -/
structure Rearranges (table next : Table) : Prop where
  dataKeys : next.dataKeys.Perm table.dataKeys
  dataColumns : next.dataColumns = table.dataColumns

theorem Rearranges.trans {last : Table} (first : table.Rearranges next)
    (second : next.Rearranges last) : table.Rearranges last :=
  ⟨second.dataKeys.trans first.dataKeys, second.dataColumns.trans first.dataColumns⟩

/-! ### Transforms -/

theorem IsConsistent.rearranges_sortedBy (consistent : table.IsConsistent)
    {values : List Binary64} (complete : values.length = table.dataKeys.length) :
    table.Rearranges (table.sortedBy values) := by
  have perm : (table.sortedBy values).dataKeys.Perm table.dataKeys := by
    rw [consistent.dataKeys_sortedBy]
    exact sortedKeys_perm complete
  refine ⟨perm, List.map_congr_left fun named _ => funext fun key => ?_⟩
  exact if_congr perm.mem_iff rfl rfl

theorem rearranges_withSummary {key : String} {summary : List Float → Float}
    {columns : List (List Binary64)} (fresh : key ∉ table.keys)
    (complete : columns.length = table.data.series.length) :
    table.Rearranges (table.withSummary key summary columns) := by
  have dataKeys := table.dataKeys_withSummary key summary columns
  refine ⟨dataKeys ▸ .refl _, ?_⟩
  have first : (table.data.series.zip columns).map Prod.fst = table.data.series :=
    List.map_fst_zip complete.ge
  calc (table.withSummary key summary columns).dataColumns
      = ((table.data.series.zip columns).map Prod.fst).map fun named other =>
          if other ∈ table.dataKeys then named.2.get? other else none := by
        unfold dataColumns
        rw [dataKeys]
        unfold withSummary
        rw [List.map_map, List.map_map]
        refine List.map_congr_left fun ⟨named, column⟩ _ => funext fun other => ?_
        refine if_ctx_congr Iff.rfl (fun inData => ?_) fun _ => rfl
        -- the mean is put under a new key, which is none of the data categories
        have different : other ≠ key := fun same => fresh (same ▸ List.mem_of_mem_take inData)
        exact (Series.get?_insert ..).trans (if_neg different)
    _ = table.dataColumns := by rw [first, dataColumns]

theorem IsConsistent.rearranges_of_gives {transform : Transform} (consistent : table.IsConsistent)
    (only : transform.rearranges = true) (gives : transform.Gives table next) :
    table.Rearranges next := by
  cases gives with
  | normalize present divisible => cases only
  | sortBy present listed => exact consistent.rearranges_sortedBy (Series.length_ordered listed)
  | appendAmean filled fresh listed =>
      exact rearranges_withSummary fresh (DataSet.length_aligned listed)
  | appendGmean positive filled fresh listed =>
      exact rearranges_withSummary fresh (DataSet.length_aligned listed)
  | ignore present several => cases only

theorem IsConsistent.rearranges_after {transforms : List Transform}
    (consistent : table.IsConsistent)
    (only : ∀ transform ∈ transforms, transform.rearranges = true) :
    table.Rearranges (table.after transforms) := by
  refine consistent.after_induction table.Rearranges ⟨.refl _, rfl⟩ ?_
  intro transform member current next here rearranged gives
  exact rearranged.trans (here.rearranges_of_gives (only transform member) gives)

/-! ### Lines -/

/-- The lines by the data categories depend on the values under these alone. -/
theorem lines_dataColumns (table : Table) :
    (table.data.series.map fun named =>
      ordered table.numbers (table.dataKeys.filterMap named.2.get?)) =
    table.dataColumns.map fun column => ordered table.numbers (table.dataKeys.filterMap column) := by
  unfold dataColumns
  rw [List.map_map]
  refine List.map_congr_left fun named _ => congrArg (ordered table.numbers) ?_
  exact List.filterMap_congr fun key member => (if_pos member).symm

theorem IsConsistent.isSome_dataColumn (consistent : table.IsConsistent)
    {column : String → Option Binary64} (member : column ∈ table.dataColumns) {key : String}
    (known : key ∈ table.dataKeys) : (column key).isSome = true := by
  obtain ⟨named, inTable, rfl⟩ := List.mem_map.mp member
  dsimp only
  rw [if_pos known]
  exact consistent.isSome_get? inTable (List.mem_of_mem_take known)

theorem ordered_of_dataKeys_perm {column : String → Option Binary64}
    (perm : next.dataKeys.Perm table.dataKeys) (numeric : table.IsNumeric)
    (distinct : table.numbers.Nodup)
    (complete : ∀ key ∈ table.dataKeys, (column key).isSome = true) :
    ordered next.numbers (next.dataKeys.filterMap column) =
      ordered table.numbers (table.dataKeys.filterMap column) := by
  have nextNumeric : next.IsNumeric := fun key member => numeric key (perm.mem_iff.mp member)
  have nextComplete : ∀ key ∈ next.dataKeys, (column key).isSome = true := fun key member =>
    complete key (perm.mem_iff.mp member)
  apply ordered_of_perm distinct
  · exact (length_filterMap numeric).trans (length_filterMap complete).symm
  · exact (length_filterMap nextNumeric).trans (length_filterMap nextComplete).symm
  · have injective : Function.Injective (Prod.map (some : Binary64 → _) (some : Binary64 → _)) :=
      (Option.some_injective _).prodMap (Option.some_injective _)
    -- both lists of points are what is found beside the keys, in the order of these
    apply (List.map_perm_map_iff injective).mp
    unfold numbers
    rw [map_zip_filterMap numeric complete, map_zip_filterMap nextNumeric nextComplete]
    exact perm.map _

theorem Rearranges.lines_eq (rearranges : table.Rearranges next) (consistent : table.IsConsistent)
    (numeric : table.IsNumeric) (distinct : table.numbers.Nodup) :
    (next.data.series.map fun named =>
      ordered next.numbers (next.dataKeys.filterMap named.2.get?)) =
    table.data.series.map fun named =>
      ordered table.numbers (table.dataKeys.filterMap named.2.get?) := by
  rw [lines_dataColumns, lines_dataColumns, rearranges.dataColumns]
  exact List.map_congr_left fun column member => ordered_of_dataKeys_perm rearranges.dataKeys
    numeric distinct fun key known => consistent.isSome_dataColumn member known

end Table

/-- The order of the categories makes no difference to lines at numbers that are all different, and
means are left out of them: whatever sortings and means were accepted, the lines are the same and so
are the tics. -/
theorem same_lines_after_rearranging {table : Table} (reachable : table.IsReachable)
    (filled : table.dataKeys ≠ []) (numeric : table.IsNumeric)
    (distinct : table.numbers.Pairwise fun first second => first.orderKey ≠ second.orderKey)
    {transforms : List Transform}
    (only : ∀ transform ∈ transforms, transform.rearranges = true) :
    ∃ points, ∀ step, ofTable table step = .ok points ∧
      ofTable (table.after transforms) step = .ok points := by
  have consistent := reachable.consistent
  have rearranges := consistent.rearranges_after only
  have perm := rearranges.dataKeys
  have nodup : table.numbers.Nodup := List.Pairwise.imp (S := (· ≠ ·))
    (fun different same => different (congrArg Binary64.orderKey same)) distinct
  have nextNumeric : (table.after transforms).IsNumeric := fun key member =>
    numeric key (perm.mem_iff.mp member)
  have nextFilled : (table.after transforms).dataKeys ≠ [] := fun none =>
    filled (none ▸ perm).nil_eq.symm
  have numbers : (table.after transforms).numbers.Perm table.numbers := perm.filterMap number?
  refine ⟨_, fun step => ⟨consistent.ofTable_of_numbers numeric filled step, ?_⟩⟩
  rw [(consistent.after transforms).ofTable_of_numbers nextNumeric nextFilled,
    mergeSort_totalLe_of_perm numbers, rearranges.lines_eq consistent numeric nodup]

/-- Neither an order by values nor the means of both kinds move a point. -/
theorem coresTable_rearranged :
    let transforms : List Transform :=
      [.sortBy "opt", .appendAmean "amean", .sortBy "base", .appendGmean "gmean"]
    coresTable.IsReachable ∧
    (∀ transform ∈ transforms, transform.rearranges = true) ∧
    ∃ points, ofTable coresTable 0 = .ok points ∧
      ofTable (coresTable.after transforms) 0 = .ok points := by
  intro transforms
  have loaded : coresTable.IsLoaded := ⟨cores, .inl ⟨"cores.csv", by decide +kernel⟩⟩
  have reachable : coresTable.IsReachable := .of_loaded loaded []
  have filled : coresTable.dataKeys ≠ [] := by decide +kernel
  have numeric : coresTable.IsNumeric := by decide +kernel
  have distinct : coresTable.numbers.Pairwise
      fun first second => first.orderKey ≠ second.orderKey := by decide +kernel
  have only : ∀ transform ∈ transforms, transform.rearranges = true := by decide +kernel
  obtain ⟨points, same⟩ := same_lines_after_rearranging reachable filled numeric distinct only
  exact ⟨reachable, only, points, same 0⟩

end TikzChart
