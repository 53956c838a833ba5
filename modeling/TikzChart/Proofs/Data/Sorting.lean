import Mathlib.Data.List.Nodup
import TikzChart.Proofs.Data.Listing
import TikzChart.Proofs.Data.Reachable
import TikzChart.Proofs.Rounding.TotalOrder

/-!
Tables sorted by one of their series. Sorting the values with their categories is a stable sort of
the categories (`sortedKeys_eq`), so categories with one value keep their order and a second sort
finds nothing to do. Nothing but the order of the data categories is changed.
-/

set_option autoImplicit false

namespace TikzChart

/-! ### Categories by value -/

namespace Series

variable {series : Series Binary64} {keys : List String} {values : List Binary64}

/-- The place of a key's value in the total order. -/
def rank (series : Series Binary64) (key : String) : Int :=
  ((series.get? key).map Binary64.orderKey).getD 0

/-- The value of the first key comes before that of the second one, or is the same. -/
def keyLe (series : Series Binary64) (first second : String) : Bool :=
  decide (series.rank first ≤ series.rank second)

theorem keyLe_trans (first second third : String) (low : series.keyLe first second = true)
    (high : series.keyLe second third = true) : series.keyLe first third = true :=
  decide_eq_true ((of_decide_eq_true low).trans (of_decide_eq_true high))

theorem keyLe_total (first second : String) :
    (series.keyLe first second || series.keyLe second first) = true := by
  rw [Bool.or_eq_true]
  exact (le_total (series.rank first) (series.rank second)).imp decide_eq_true decide_eq_true

theorem keyLe_eq_totalLe {first second : String} {low high : Binary64}
    (foundFirst : series.get? first = some low) (foundSecond : series.get? second = some high) :
    series.keyLe first second = low.totalLe high := by
  unfold keyLe rank
  rw [foundFirst, foundSecond]
  rfl

theorem get?_of_mem_zip (listed : values.map some = keys.map series.get?) {value : Binary64}
    {key : String} (member : (value, key) ∈ values.zip keys) : series.get? key = some value := by
  have paired : (values.zip keys).map (Prod.map some id) =
      keys.map fun key => (series.get? key, key) := by
    have pairs := List.zip_map' (f := series.get?) (g := id) (l := keys)
    rw [List.map_id] at pairs
    rw [← List.zip_map_left, listed]
    exact pairs
  have there := List.mem_map_of_mem (f := Prod.map some id) member
  rw [paired] at there
  obtain ⟨_, _, same⟩ := List.mem_map.mp there
  obtain ⟨isValue, rfl⟩ := Prod.mk.inj same
  exact isValue

theorem sortedKeys_eq (listed : values.map some = keys.map series.get?) :
    ((values.zip keys).mergeSort fun first second => first.1.totalLe second.1).map Prod.snd =
      keys.mergeSort series.keyLe := by
  have lengths := congrArg List.length listed
  rw [List.length_map, List.length_map] at lengths
  -- the value beside a key is that of the series, so pairs and keys compare alike
  have sorted := List.map_mergeSort (r := fun first second => first.1.totalLe second.1)
    (s := series.keyLe) (f := Prod.snd) (l := values.zip keys) ?_
  · rw [sorted, List.map_snd_zip lengths.ge]
  · intro first firstMember second secondMember
    exact (keyLe_eq_totalLe (get?_of_mem_zip listed firstMember)
      (get?_of_mem_zip listed secondMember)).symm

end Series

/-! ### Rows in another order -/

/-- The items at the given places, in the order of the places. -/
def atPlaces {α : Type} (places : List Nat) (items : List α) : List α := places.filterMap (items[·]?)

section

variable {α β : Type}

theorem map_atPlaces (change : α → β) (places : List Nat) (items : List α) :
    (atPlaces places items).map change = atPlaces places (items.map change) := by
  unfold atPlaces
  rw [List.map_filterMap]
  simp only [List.getElem?_map]

variable {keys sorted : List String}

theorem map_idxOf_self (distinct : keys.Nodup) :
    keys.map (keys.idxOf ·) = List.range keys.length := by
  apply List.ext_getElem
  · rw [List.length_map, List.length_range]
  · intro place inside _
    rw [List.length_map] at inside
    rw [List.getElem_map, List.getElem_range, distinct.idxOf_getElem]

/-- What stands beside distinct keys moves with them. -/
theorem atPlaces_map (perm : sorted.Perm keys) (beside : String → β) :
    atPlaces (sorted.map (keys.idxOf ·)) (keys.map beside) = sorted.map beside := by
  have kept : sorted.map beside = sorted.filterMap (some ∘ beside) := by rw [List.filterMap_eq_map]
  unfold atPlaces
  rw [List.filterMap_map, kept]
  apply List.filterMap_congr
  intro key member
  have found := List.getElem?_idxOf (perm.mem_iff.mp member)
  dsimp only [Function.comp]
  rw [List.getElem?_map, found, Option.map_some]

end

namespace Table

variable {table : Table} {name : String}

/-- The other table has the rows of this one in the order of its own categories. -/
theorem rows_of_perm {sorted : Table} {rows : List (List Binary64)} (has : table.HasRows rows)
    (perm : sorted.keys.Perm table.keys) (data : sorted.data = table.data) :
    sorted.HasRows (rows.map (atPlaces (sorted.keys.map (table.keys.idxOf ·)))) := by
  unfold HasRows at has ⊢
  calc (rows.map (atPlaces (sorted.keys.map (table.keys.idxOf ·)))).map (List.map some)
      = (rows.map (List.map some)).map (atPlaces (sorted.keys.map (table.keys.idxOf ·))) := by
        rw [List.map_map, List.map_map]
        exact List.map_congr_left fun row _ => map_atPlaces some _ row
    _ = table.data.series.map fun named => sorted.keys.map named.2.get? := by
        rw [has, List.map_map]
        exact List.map_congr_left fun named _ => atPlaces_map perm named.2.get?
    _ = sorted.data.series.map fun named => sorted.keys.map named.2.get? := by rw [data]

theorem HasRows.unique {rows others : List (List Binary64)} (has : table.HasRows rows)
    (hasOthers : table.HasRows others) : rows = others :=
  (Option.some_injective _).list_map.list_map (has.trans hasOthers.symm)

/-- The data categories stand in the order of the values of a series, and the rows with them. -/
structure IsSortedBy (table : Table) (name : String) (sorted : Table) : Prop where
  perm : sorted.dataKeys.Perm table.dataKeys
  ascending : sorted.dataKeys.Pairwise fun first second =>
    ∃ low high, table.value? name first = some low ∧ table.value? name second = some high ∧
      low.totalLe high = true
  stable : ∀ first second, [first, second].Sublist table.dataKeys →
    table.value? name first = table.value? name second → [first, second].Sublist sorted.dataKeys
  means : sorted.keys = sorted.dataKeys ++ table.summaryKeys
  summaries : sorted.summaries = table.summaries
  data : sorted.data = table.data
  rows : ∃ places, places.Perm (List.range table.keys.length) ∧
    sorted.keys = atPlaces places table.keys ∧
    ∃ rows, table.rows = .ok rows ∧ sorted.rows = .ok (rows.map (atPlaces places))

namespace IsConsistent

variable (consistent : table.IsConsistent) {series : Series Binary64}
  (present : table.data.get? name = some series)

include consistent present

theorem contains_dataKey {key : String} (known : key ∈ table.dataKeys) :
    series.contains key = true :=
  (consistent.columns _ (DataSet.mem_of_get? present) key).mpr (List.mem_of_mem_take known)

theorem exists_sorted : ∃ values, series.ordered name table.dataKeys = .ok values ∧
    (table.sortedBy values).dataKeys = table.dataKeys.mergeSort series.keyLe := by
  obtain ⟨values, listed, found⟩ := Series.ordered_of_contained name
    fun key known => consistent.contains_dataKey present known
  refine ⟨values, listed, ?_⟩
  rw [consistent.dataKeys_sortedBy, Series.sortedKeys_eq found]

theorem sortedBy_isSortedBy {values : List Binary64}
    (listed : series.ordered name table.dataKeys = .ok values)
    (sorted : (table.sortedBy values).dataKeys = table.dataKeys.mergeSort series.keyLe) :
    table.IsSortedBy name (table.sortedBy values) where
  perm := by
    rw [sorted]
    exact List.mergeSort_perm _ _
  ascending := by
    rw [sorted]
    refine (List.pairwise_mergeSort series.keyLe_trans series.keyLe_total _).imp_of_mem ?_
    intro first second firstMember secondMember le
    obtain ⟨low, foundLow⟩ := Series.contains_iff_get?.mp
      (consistent.contains_dataKey present (List.mem_mergeSort.mp firstMember))
    obtain ⟨high, foundHigh⟩ := Series.contains_iff_get?.mp
      (consistent.contains_dataKey present (List.mem_mergeSort.mp secondMember))
    rw [Series.keyLe_eq_totalLe foundLow foundHigh] at le
    exact ⟨low, high, (value?_of_get? present first).trans foundLow,
      (value?_of_get? present second).trans foundHigh, le⟩
  stable := by
    intro first second before same
    rw [value?_of_get? present, value?_of_get? present] at same
    have le : series.keyLe first second = true := by
      unfold Series.keyLe Series.rank
      rw [same]
      exact decide_eq_true (le_refl _)
    rw [sorted]
    exact List.pair_sublist_mergeSort series.keyLe_trans series.keyLe_total le before
  means := by
    rw [consistent.dataKeys_sortedBy]
    rfl
  summaries := rfl
  data := rfl
  rows := by
    have complete := Series.length_ordered listed
    have perm := keys_sortedBy_perm complete
    have after : (table.sortedBy values).IsConsistent := consistent.sorted (sortedKeys_perm complete)
    have unmoved := atPlaces_map perm id
    rw [List.map_id, List.map_id] at unmoved
    obtain ⟨rows, isListed, has⟩ := consistent.listed
    obtain ⟨moved, isMoved, hasMoved⟩ := after.listed
    refine ⟨(table.sortedBy values).keys.map (table.keys.idxOf ·), ?_, unmoved.symm, rows, isListed,
      ?_⟩
    · rw [← map_idxOf_self consistent.keysDistinct]
      exact perm.map _
    · -- the rows that are listed after the sort and the rearranged ones list the same series
      rw [isMoved, hasMoved.unique (rows_of_perm has perm rfl)]

theorem sortBy_of_pairwise
    (inOrder : table.dataKeys.Pairwise fun first second => series.keyLe first second = true) :
    (TableStep.sortBy name).runOn table = (.ok (), table) := by
  obtain ⟨values, listed, sorted⟩ := consistent.exists_sorted present
  have keys : (table.sortedBy values).keys = table.keys := by
    rw [(consistent.sortedBy_isSortedBy present listed sorted).means, sorted,
      List.mergeSort_of_pairwise inOrder, dataKeys_append_summaryKeys]
  have same : table.sortedBy values = table := congrArg (fun keys => { table with keys }) keys
  have gives : (Transform.sortBy name).Gives table (table.sortedBy values) := .sortBy present listed
  rw [same] at gives
  exact TableStep.sortBy_accepted_iff.mpr gives

end IsConsistent

end Table

/-- A table that can be reached is sorted by any of its series. Its data categories come in the
total order of the values, those of one value in the order that they had, and the means stay behind
them; no value changes its category, so all rows are rearranged alike. Sorting again changes
nothing. -/
theorem sorted_by_values {table : Table} (reachable : table.IsReachable) {name : String}
    (named : name ∈ table.names) :
    ∃ sorted, (TableStep.sortBy name).runOn table = (.ok (), sorted) ∧
      table.IsSortedBy name sorted ∧
      (TableStep.sortBy name).runOn sorted = (.ok (), sorted) := by
  have consistent := reachable.consistent
  obtain ⟨series, present⟩ := Option.isSome_iff_exists.mp (DataSet.isSome_get?.mpr named)
  obtain ⟨values, listed, sorted⟩ := consistent.exists_sorted present
  have gives : (Transform.sortBy name).Gives table (table.sortedBy values) := .sortBy present listed
  refine ⟨_, Transform.accepted_iff.mpr gives,
    consistent.sortedBy_isSortedBy present listed sorted, ?_⟩
  apply (consistent.given gives).sortBy_of_pairwise present
  rw [sorted]
  exact List.pairwise_mergeSort series.keyLe_trans series.keyLe_total _

/-- No number, two zeros of different signs and one of them twice, and a mean behind them. -/
def unsorted : Workspace :=
  { tree := ⟨[(["runs.csv"], .file "key,a,b\nw,0,1\nx,nan,2\ny,0,3\nz,-0,4\n".toUTF8)]⟩ }

def unsortedTable : Table :=
  { keys := ["w", "x", "y", "z"]
    data := ⟨[
      ("a", .ofList [("w", .ofFloat 0), ("x", .ofMagnitude false Binary64.nanMagnitude),
        ("y", .ofFloat 0), ("z", .ofMagnitude true 0)]),
      ("b", .ofList [("w", .ofFloat 1), ("x", .ofFloat 2), ("y", .ofFloat 3), ("z", .ofFloat 4)])]⟩ }

/-- The categories with the positive zero keep their order, and the mean stays last. -/
theorem unsortedTable_sorted :
    let table := unsortedTable.after [.appendAmean "amean"]
    table.IsReachable ∧ "a" ∈ table.names ∧
    ∃ sorted, (TableStep.sortBy "a").runOn table = (.ok (), sorted) ∧
      sorted.dataKeys.Perm ["w", "x", "y", "z"] ∧ ["w", "y"].Sublist sorted.dataKeys ∧
      sorted.keys = sorted.dataKeys ++ ["amean"] ∧
      (TableStep.sortBy "a").runOn sorted = (.ok (), sorted) := by
  intro table
  have loaded : unsortedTable.IsLoaded := ⟨unsorted, .inl ⟨"runs.csv", by decide +kernel⟩⟩
  have reachable : table.IsReachable := .of_loaded loaded _
  have named : "a" ∈ table.names := by decide +kernel
  have before : table.dataKeys = ["w", "x", "y", "z"] := by decide +kernel
  have mean : table.summaryKeys = ["amean"] := by decide +kernel
  have same : table.value? "a" "w" = table.value? "a" "y" := by decide +kernel
  obtain ⟨sorted, ran, isSorted, again⟩ := sorted_by_values reachable named
  refine ⟨reachable, named, sorted, ran, before ▸ isSorted.perm, ?_, mean ▸ isSorted.means, again⟩
  apply isSorted.stable "w" "y" ?_ same
  rw [before]
  decide

end TikzChart
