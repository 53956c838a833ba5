import TikzChart.Proofs.Data.Transform

/-!
Consistent tables: the categories are exactly the keys of every series, and the means are the last
of them. Every change of a table keeps it consistent, so any number of transforms does, and no
transform of a consistent table finds a value missing.
-/

set_option autoImplicit false

namespace TikzChart

/-- The categories are distinct and are the keys of every series; so many of them are means. -/
structure Table.IsConsistent (table : Table) : Prop where
  keysDistinct : table.keys.Nodup
  namesDistinct : table.names.Nodup
  columns : ∀ named ∈ table.data.series, named.2.HasKeys table.keys
  counted : table.summaries ≤ table.keys.length

namespace Table

variable {table next : Table}

/-! ### Data categories and means -/

theorem dataKeys_append_summaryKeys (table : Table) :
    table.dataKeys ++ table.summaryKeys = table.keys :=
  List.take_append_drop _ table.keys

namespace IsConsistent

theorem length_dataKeys (consistent : table.IsConsistent) :
    table.dataKeys.length + table.summaries = table.keys.length := by
  have counted := consistent.counted
  unfold dataKeys
  rw [List.length_take]
  omega

theorem length_summaryKeys (consistent : table.IsConsistent) :
    table.summaryKeys.length = table.summaries := by
  have counted := consistent.counted
  unfold summaryKeys
  rw [List.length_drop]
  omega

theorem not_ragged (consistent : table.IsConsistent) : ¬table.IsRagged := by
  rintro ⟨named, member, key, inKeys, lacking⟩
  rw [(consistent.columns named member key).mpr inKeys] at lacking
  cases lacking

end IsConsistent

/-! ### Values -/

/-- The value of a series under a category. -/
def value? (table : Table) (name key : String) : Option Binary64 :=
  (table.data.get? name).bind fun series => series.get? key

theorem IsConsistent.mem_keys_of_value? (consistent : table.IsConsistent) {name key : String}
    {value : Binary64} (found : table.value? name key = some value) : key ∈ table.keys := by
  obtain ⟨series, named, under⟩ := Option.bind_eq_some_iff.mp found
  exact (consistent.columns _ (DataSet.mem_of_get? named) key).mp
    (Series.contains_iff_get?.mpr ⟨value, under⟩)

theorem value?_of_get? {name : String} {series : Series Binary64}
    (present : table.data.get? name = some series) (key : String) :
    table.value? name key = series.get? key := by
  rw [value?, present, Option.bind_some]

/-- Every series has a value under every category. -/
theorem IsConsistent.exists_value (consistent : table.IsConsistent) {name key : String}
    (named : name ∈ table.names) (known : key ∈ table.keys) :
    ∃ value, table.value? name key = some value := by
  obtain ⟨series, present⟩ := Option.isSome_iff_exists.mp (DataSet.isSome_get?.mpr named)
  rw [value?_of_get? present]
  exact Series.contains_iff_get?.mp
    ((consistent.columns _ (DataSet.mem_of_get? present) key).mpr known)

/-! ### Changes -/

theorem contains_divideSeries {base series : Series Binary64} {keys : List String} {key : String} :
    (divideSeries base keys series).contains key = true ↔ series.contains key = true := by
  unfold divideSeries
  induction keys generalizing series with
  | nil => exact Iff.rfl
  | cons divided keys ih =>
      rw [List.foldl_cons, ih]
      cases found : series.get? divided with
      | none => exact Iff.rfl
      | some value =>
          cases base.get? divided with
          | none => exact Iff.rfl
          | some divisor =>
              rw [Series.contains_insert]
              apply or_iff_right_of_imp
              intro same
              rw [same, Series.contains_iff_get?]
              exact ⟨value, found⟩

theorem mem_withSummary {key : String} {summary : List Float → Float}
    {columns : List (List Binary64)} {named : String × Series Binary64}
    (member : named ∈ (table.withSummary key summary columns).data.series) :
    ∃ series value, (named.1, series) ∈ table.data.series ∧ named.2 = series.insert key value := by
  obtain ⟨⟨⟨name, series⟩, column⟩, zipped, rfl⟩ := List.mem_map.mp member
  exact ⟨series, _, (List.of_mem_zip zipped).1, rfl⟩

theorem names_withSummary {key : String} {summary : List Float → Float}
    {columns : List (List Binary64)} (complete : columns.length = table.data.series.length) :
    (table.withSummary key summary columns).names = table.names := by
  have first : (table.data.series.zip columns).map Prod.fst = table.data.series :=
    List.map_fst_zip (Nat.le_of_eq complete.symm)
  calc (table.withSummary key summary columns).names
      = ((table.data.series.zip columns).map Prod.fst).map Prod.fst := by
        unfold withSummary names DataSet.names
        rw [List.map_map, List.map_map]
        rfl
    _ = table.names := by rw [first]; rfl

theorem IsConsistent.divided (consistent : table.IsConsistent) (base : Series Binary64) :
    IsConsistent
      { table with data := table.data.mapSeries fun _ => divideSeries base table.keys } where
  keysDistinct := consistent.keysDistinct
  namesDistinct := by
    have sameNames := table.data.names_mapSeries fun _ => divideSeries base table.keys
    have distinct := consistent.namesDistinct
    unfold names at distinct ⊢
    rw [sameNames]
    exact distinct
  columns := by
    intro named member key
    obtain ⟨before, inTable, rfl⟩ := List.mem_map.mp member
    exact contains_divideSeries.trans (consistent.columns before inTable key)
  counted := consistent.counted

theorem IsConsistent.sorted (consistent : table.IsConsistent) {keys : List String}
    (perm : keys.Perm table.dataKeys) :
    IsConsistent { table with keys := keys ++ table.summaryKeys } := by
  have permKeys := perm.append_right table.summaryKeys
  rw [dataKeys_append_summaryKeys] at permKeys
  exact
    { keysDistinct := permKeys.nodup_iff.mpr consistent.keysDistinct
      namesDistinct := consistent.namesDistinct
      columns := fun named member => (consistent.columns named member).perm permKeys
      counted := permKeys.length_eq ▸ consistent.counted }

theorem IsConsistent.summarized (consistent : table.IsConsistent) {key : String}
    {summary : List Float → Float} {columns : List (List Binary64)} (fresh : key ∉ table.keys)
    (complete : columns.length = table.data.series.length) :
    (table.withSummary key summary columns).IsConsistent where
  keysDistinct := by
    unfold withSummary
    rw [← List.concat_eq_append]
    exact consistent.keysDistinct.concat fresh
  namesDistinct := by
    rw [names_withSummary complete]
    exact consistent.namesDistinct
  columns := by
    intro named member
    obtain ⟨series, value, inTable, inserted⟩ := mem_withSummary member
    rw [inserted]
    exact (consistent.columns _ inTable).insert_new
  counted := by
    unfold withSummary
    rw [List.length_append, List.length_singleton]
    exact Nat.succ_le_succ consistent.counted

theorem IsConsistent.ignored (consistent : table.IsConsistent) (name : String) :
    IsConsistent { table with data := table.data.erase name } where
  keysDistinct := consistent.keysDistinct
  namesDistinct :=
    List.Pairwise.sublist (List.eraseP_sublist.map Prod.fst) consistent.namesDistinct
  columns := fun named member => consistent.columns named (List.mem_of_mem_eraseP member)
  counted := consistent.counted

theorem IsConsistent.change {mean? : Option String} (consistent : table.IsConsistent)
    (change : table.Change mean? next) : next.IsConsistent := by
  cases change with
  | divided base => exact consistent.divided base
  | sorted perm => exact consistent.sorted perm
  | summarized fresh complete => exact consistent.summarized fresh complete
  | ignored name => exact consistent.ignored name

/-- A change appends its mean to the means. -/
theorem Change.summaryKeys_eq {mean? : Option String} (consistent : table.IsConsistent)
    (change : table.Change mean? next) :
    next.summaryKeys = table.summaryKeys ++ mean?.toList := by
  cases change with
  | divided base => exact (List.append_nil _).symm
  | @sorted keys perm =>
      have counts := consistent.length_dataKeys
      have sizes := consistent.length_summaryKeys
      have here : (keys ++ table.summaryKeys).length - table.summaries = keys.length := by
        rw [List.length_append, sizes, Nat.add_sub_cancel]
      rw [summaryKeys, here, List.drop_left]
      exact (List.append_nil _).symm
  | @summarized key summary rows fresh complete =>
      have here : (table.keys ++ [key]).length - (table.summaries + 1) =
          table.keys.length - table.summaries := by
        rw [List.length_append, List.length_singleton, Nat.add_sub_add_right]
      have inside : table.keys.length - table.summaries ≤ table.keys.length := Nat.sub_le _ _
      unfold withSummary summaryKeys
      rw [here, List.drop_append_of_le_length inside]
      rfl
  | ignored name => exact (List.append_nil _).symm

end Table

/-! ### All transforms -/

namespace Table.IsConsistent

variable {table : Table}

theorem step (consistent : table.IsConsistent) (transform : Transform) :
    (transform.step.runOn table).2.IsConsistent := by
  rcases transform.run table with ⟨cause, ran, _⟩ | ⟨next, ran, change⟩
  · rw [ran]
    exact consistent
  · rw [ran]
    exact consistent.change change

theorem after (consistent : table.IsConsistent) (transforms : List Transform) :
    (table.after transforms).IsConsistent := by
  apply Step.stateAfter_induction consistent
  intro step member current here
  obtain ⟨transform, _, rfl⟩ := List.mem_map.mp member
  exact here.step transform

theorem summaryKeys_after (consistent : table.IsConsistent) (transforms : List Transform) :
    (table.after transforms).summaryKeys = table.summaryKeys ++ table.appended transforms := by
  induction transforms generalizing table with
  | nil => exact (List.append_nil _).symm
  | cons transform rest ih =>
      have later := ih (consistent.step transform)
      have here : (table.after (transform :: rest)) =
          (transform.step.runOn table).2.after rest := rfl
      rw [here, later, appended]
      rcases transform.run table with ⟨cause, ran, _⟩ | ⟨next, ran, change⟩
      · rw [ran]
      · rw [ran]
        dsimp only
        rw [change.summaryKeys_eq consistent, List.append_assoc]

theorem not_missing (consistent : table.IsConsistent) (transform : Transform) (cause : DataError) :
    (transform.step.runOn table).1 ≠ .error (.data cause) := by
  rcases transform.run table with ⟨found, ran, ragged⟩ | ⟨next, ran, _⟩
  · rw [ran]
    intro same
    exact consistent.not_ragged (ragged cause (Except.error.inj same))
  · rw [ran]
    exact fun impossible => nomatch impossible

end Table.IsConsistent

end TikzChart
