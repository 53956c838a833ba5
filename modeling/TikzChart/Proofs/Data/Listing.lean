import Mathlib.Control.Monad.Basic
import Mathlib.Data.List.Basic
import Mathlib.Data.Option.Basic
import TikzChart.Data.LinePoints
import TikzChart.Data.TableText
import TikzChart.Proofs.Data.Loading

/-!
What can be listed of a consistent table: one row a series, with one value a category; lines, unless
tics are wanted at no distance; and the text, up to the limit of decimals.
-/

set_option autoImplicit false

namespace TikzChart

/-- The rows are what the series of the table have under its categories. -/
def Table.HasRows (table : Table) (rows : List (List Binary64)) : Prop :=
  rows.map (List.map some) = table.data.series.map fun named => table.keys.map named.2.get?

/-! ### Categories with what is found for them -/

section

variable {α β : Type} {keys : List String} {beside : String → Option α}

theorem map_some_filterMap (all : ∀ key ∈ keys, (beside key).isSome = true) :
    (keys.filterMap beside).map some = keys.map beside := by
  induction keys with
  | nil => rfl
  | cons key keys ih =>
      obtain ⟨isSome, rest⟩ := List.forall_mem_cons.mp all
      obtain ⟨found, isFound⟩ := Option.isSome_iff_exists.mp isSome
      rw [List.filterMap_cons_some isFound, List.map_cons, List.map_cons, ih rest, isFound]

theorem length_filterMap (all : ∀ key ∈ keys, (beside key).isSome = true) :
    (keys.filterMap beside).length = keys.length := by
  have lengths := congrArg List.length (map_some_filterMap all)
  rw [List.length_map, List.length_map] at lengths
  exact lengths

theorem map_zip_filterMap {other : String → Option β}
    (all : ∀ key ∈ keys, (beside key).isSome = true)
    (allOther : ∀ key ∈ keys, (other key).isSome = true) :
    ((keys.filterMap beside).zip (keys.filterMap other)).map (Prod.map some some) =
      keys.map fun key => (beside key, other key) := by
  rw [← List.zip_map, map_some_filterMap all, map_some_filterMap allOther]
  exact List.zip_map'

end

namespace Table.IsConsistent

variable {table : Table} (consistent : table.IsConsistent)

include consistent

theorem aligned {keys : List String} (known : ∀ key ∈ keys, key ∈ table.keys) :
    ∃ rows, table.data.aligned keys = .ok rows ∧
      rows.map (List.map some) = table.data.series.map fun named => keys.map named.2.get? := by
  apply DataSet.aligned_of_contained
  intro named member key inKeys
  exact (consistent.columns named member key).mpr (known key inKeys)

theorem isSome_get? {named : String × Series Binary64} (member : named ∈ table.data.series)
    {key : String} (known : key ∈ table.keys) : (named.2.get? key).isSome = true :=
  (consistent.columns named member key).mpr known

theorem aligned_eq {keys : List String} (known : ∀ key ∈ keys, key ∈ table.keys) :
    table.data.aligned keys =
      .ok (table.data.series.map fun named => keys.filterMap named.2.get?) := by
  obtain ⟨rows, aligned, same⟩ := consistent.aligned known
  have listed : (table.data.series.map fun named => keys.filterMap named.2.get?).map (List.map some) =
      rows.map (List.map some) := by
    rw [same, List.map_map]
    exact List.map_congr_left fun named member => map_some_filterMap fun key inKeys =>
      consistent.isSome_get? member (known key inKeys)
  rw [aligned, (Option.some_injective _).list_map.list_map listed]

theorem listed : ∃ rows, table.rows = .ok rows ∧ table.HasRows rows := by
  obtain ⟨rows, aligned, same⟩ := consistent.aligned fun key member => member
  refine ⟨rows, ?_, same⟩
  unfold Table.rows
  rw [aligned]
  rfl

/-- Lines of a consistent table are refused for the distance of the tics alone. -/
theorem zeroTicStep_of_error {step : Nat} {cause : TableError}
    (refused : LinePoints.ofTable table step = .error cause) : cause = .zeroTicStep := by
  have succeeds {keys : List String} (known : ∀ key ∈ keys, key ∈ table.keys)
      (positions tics : List Binary64) :
      LinePoints.along table keys positions tics ≠ .error cause := by
    obtain ⟨rows, aligned, _⟩ := consistent.aligned known
    unfold LinePoints.along
    rw [aligned]
    exact fun impossible => nomatch impossible
  unfold LinePoints.ofTable at refused
  split at refused
  · have known : ∀ key ∈ table.dataKeys, key ∈ table.keys := fun _ => List.mem_of_mem_take
    exact absurd refused (succeeds known _ _)
  · split at refused
    · exact (Except.error.inj refused).symm
    · exact absurd refused (succeeds (fun _ member => member) _ _)

end Table.IsConsistent

namespace Table

variable {table : Table}

theorem HasRows.lengths {rows : List (List Binary64)} (has : table.HasRows rows) :
    rows.length = table.data.size ∧ ∀ row ∈ rows, row.length = table.keys.length := by
  unfold HasRows at has
  have lengths := congrArg List.length has
  rw [List.length_map, List.length_map] at lengths
  refine ⟨lengths, ?_⟩
  intro row member
  have listed := List.mem_map_of_mem (f := List.map some) member
  rw [has] at listed
  obtain ⟨named, _, found⟩ := List.mem_map.mp listed
  have sizes := congrArg List.length found
  rw [List.length_map, List.length_map] at sizes
  exact sizes.symm

/-- A position in the rows gives what the series have under the category there. -/
theorem column_of_rows {named : List (String × Series Binary64)} {keys : List String}
    {rows : List (List Binary64)}
    (same : rows.map (List.map some) = named.map fun series => keys.map series.2.get?)
    {position : Nat} (inside : position < keys.length) :
    (column rows position).map some = named.map fun series => series.2.get? keys[position] := by
  induction rows generalizing named with
  | nil =>
      cases List.map_eq_nil_iff.mp same.symm
      rfl
  | cons row rows ih =>
      cases named with
      | nil => cases same
      | cons first rest =>
          rw [List.map_cons, List.map_cons] at same
          obtain ⟨sameRow, sameRows⟩ := List.cons.inj same
          have there := congrArg (·[position]?) sameRow
          rw [List.getElem?_map, List.getElem?_map, List.getElem?_eq_getElem inside] at there
          obtain ⟨value, found, isValue⟩ := Option.map_eq_some_iff.mp there
          have here : column (row :: rows) position = value :: column rows position :=
            List.filterMap_cons_some found
          rw [here, List.map_cons, List.map_cons, ih sameRows, isValue]

theorem HasRows.column {rows : List (List Binary64)} (has : table.HasRows rows) {position : Nat}
    (inside : position < table.keys.length) :
    (Table.column rows position).map some =
      table.data.series.map fun named => named.2.get? table.keys[position] :=
  column_of_rows has inside

/-- The text of a table whose values can be listed. -/
theorem text_of_rows {rows : List (List Binary64)} {digits : Nat} (listed : table.rows = .ok rows)
    (written : digits ≤ maxDecimals) (header : Bool) :
    table.text digits header = .ok ((if header then table.headerText else "") ++
      String.join (table.keys.mapIdx fun position key =>
        recordText digits key (column rows position))) := by
  have few : ¬(maxDecimals < digits ∧ ¬rows.isEmpty ∧ ¬table.keys.isEmpty) :=
    fun all => Nat.not_lt.mpr written all.1
  simp only [text, bodyText, listed, Except.mapError, Except.map, bind, Except.bind, few,
    ↓reduceIte, pure, Except.pure]

end Table

/-- After any transforms a loaded table is consistent: categories and names are distinct, every
series has exactly the categories, and the last of them are the means in the order in which they
were appended. So the values can always be listed, no transform finds one missing, and the parts
that lines and texts take lie within the table. A refused transform leaves it as it is. -/
theorem transformed_table_consistent {table : Table} (loaded : table.IsLoaded)
    (transforms : List Transform) :
    let current := table.after transforms
    (current.keys.Nodup ∧ current.names.Nodup ∧
      ∀ named ∈ current.data.series, named.2.HasKeys current.keys) ∧
    (current.summaries ≤ current.keys.length ∧
      current.keys = current.dataKeys ++ table.appended transforms ∧
      (table.appended transforms).length = current.summaries) ∧
    (∃ rows, current.rows = .ok rows ∧ rows.length = current.data.size ∧
      (∀ row ∈ rows, row.length = current.keys.length) ∧
      ∀ position, (inside : position < current.keys.length) →
        (Table.column rows position).map some =
          current.data.series.map fun named => named.2.get? current.keys[position]) ∧
    (∀ (transform : Transform) (cause : DataError),
      (transform.step.runOn current).1 ≠ .error (.data cause)) ∧
    (∀ distance cause, LinePoints.ofTable current distance = .error cause →
      cause = .zeroTicStep) ∧
    (∀ digits header, digits ≤ Table.maxDecimals →
      ∃ text, current.text digits header = .ok text) ∧
    ∀ (transform : Transform) (cause : TableError),
      (transform.step.runOn current).1 = .error cause →
        (transform.step.runOn current).2 = current := by
  intro current
  have consistent : current.IsConsistent := loaded.consistent.after transforms
  have means : current.summaryKeys = table.appended transforms := by
    have appended := loaded.consistent.summaryKeys_after transforms
    rw [loaded.no_summaryKeys] at appended
    exact appended
  obtain ⟨rows, listed, has⟩ := consistent.listed
  obtain ⟨perSeries, perKey⟩ := has.lengths
  refine ⟨⟨consistent.keysDistinct, consistent.namesDistinct, consistent.columns⟩,
    ⟨consistent.counted, ?_, ?_⟩, ⟨rows, listed, perSeries, perKey, ?_⟩, ?_, ?_, ?_, ?_⟩
  · rw [← means]
    exact current.dataKeys_append_summaryKeys.symm
  · rw [← means]
    exact consistent.length_summaryKeys
  · intro position inside
    exact has.column inside
  · exact consistent.not_missing
  · intro distance cause refused
    exact consistent.zeroTicStep_of_error refused
  · intro digits header written
    exact ⟨_, Table.text_of_rows listed written header⟩
  · intro transform cause refused
    exact Transform.unchanged_of_error refused

/-- Three categories, one of which the second series has no value for. -/
def measured : Workspace :=
  { tree := ⟨[(["ipc.csv"], .file "key,base,opt\ngcc,2,1\nlbm,1,3\nmcf,4,\n".toUTF8)]⟩ }

def measuredTable : Table :=
  { keys := ["gcc", "lbm"]
    data := ⟨[("base", .ofList [("gcc", .ofFloat 2), ("lbm", .ofFloat 1)]),
      ("opt", .ofList [("gcc", .ofFloat 1), ("lbm", .ofFloat 3)])]⟩ }

/-- A mean is appended once; the second time and the series that is not there are refused. -/
def dividedAndSummarized : List Transform :=
  [.normalize "base", .appendAmean "amean", .appendAmean "amean", .ignore "none"]

theorem measuredTable_consistent :
    measuredTable.IsLoaded ∧
    (measuredTable.after dividedAndSummarized).keys = ["gcc", "lbm", "amean"] ∧
    ∃ rows, (measuredTable.after dividedAndSummarized).rows = .ok rows ∧
      ∀ row ∈ rows, row.length = 3 := by
  have loaded : measuredTable.IsLoaded := ⟨measured, .inl ⟨"ipc.csv", by decide +kernel⟩⟩
  have appended : (measuredTable.after dividedAndSummarized).keys = ["gcc", "lbm", "amean"] := by
    decide +kernel
  obtain ⟨_, _, ⟨rows, listed, _, perKey, _⟩, _⟩ :=
    transformed_table_consistent loaded dividedAndSummarized
  rw [appended] at perKey
  exact ⟨loaded, appended, rows, listed, perKey⟩

end TikzChart
