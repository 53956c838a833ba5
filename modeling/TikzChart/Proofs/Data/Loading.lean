import TikzChart.Proofs.Data.Columns
import TikzChart.Proofs.Data.Consistency
import TikzChart.Proofs.Data.KeyValueGrammar

/-!
Loaded tables. Whichever files a table comes from, it is the restriction of a data set of distinct
names to its common keys, and so it is consistent. No category has a blank at either end.
-/

set_option autoImplicit false

namespace TikzChart

/-! ### Trimmed keys -/

/-- No key of the series has a blank at either end. -/
def Series.HasTrimmedKeys {α : Type} (series : Series α) : Prop :=
  ∀ key, series.contains key = true → Text.trim key = key

namespace Series.HasTrimmedKeys

variable {α : Type} {series : Series α} {key : String} {value : α}

theorem empty : (Series.empty : Series α).HasTrimmedKeys := fun _ impossible => nomatch impossible

theorem insert (trimmed : series.HasTrimmedKeys) (new : Text.trim key = key) :
    (series.insert key value).HasTrimmedKeys := by
  intro other contained
  rcases contains_insert.mp contained with rfl | before
  · exact new
  · exact trimmed other before

end Series.HasTrimmedKeys

theorem KeyValue.trimmed_of_readLine {number : Nat} {line : List Char} {key : String}
    {value : Binary64} (read : readLine number line = .ok (some (key, value))) :
    Text.trim key = key := by
  obtain ⟨word, text, others, has, rfl, -⟩ := readLine_eq_some_iff.mp read
  apply Text.trim_of_no_blank
  rw [String.toList_ofList]
  apply Text.no_blank_of_mem_words
  rw [(hasFields_iff.mp has).2.2]
  exact List.mem_cons_self

theorem KeyValue.trimmed_of_readLines {lines : List (List Char)} {number : Nat}
    {before after : Series Binary64} (trimmed : before.HasTrimmedKeys)
    (read : readLines before number lines = .ok after) : after.HasTrimmedKeys := by
  induction lines generalizing before number with
  | nil =>
      cases read
      exact trimmed
  | cons line lines ih =>
      unfold readLines at read
      split at read
      · cases read
      · exact ih trimmed read
      · next key value readLine =>
          exact ih (trimmed.insert (trimmed_of_readLine readLine)) read

theorem trimmed_of_loadSeries {workspace : Workspace} {path : String} {series : Series Binary64}
    (loaded : loadSeries workspace path = .ok series) : series.HasTrimmedKeys := by
  obtain ⟨content, _, loaded⟩ := Outcome.bind_eq_ok_iff.mp loaded
  obtain ⟨text, _, loaded⟩ := Outcome.bind_eq_ok_iff.mp loaded
  exact KeyValue.trimmed_of_readLines .empty (Outcome.mapError_eq_ok_iff.mp loaded)

namespace Table

theorem trimmed_foldl_putEntry {series : Series Binary64} (trimmed : series.HasTrimmedKeys)
    (rows : List (List String)) (column : Nat) :
    ((rows.map (Csv.entryOf column)).foldl putEntry series).HasTrimmedKeys := by
  induction rows generalizing series with
  | nil => exact trimmed
  | cons row rows ih =>
      apply ih
      cases entry : Csv.entryOf column row with
      | none => exact trimmed
      | some found =>
          refine trimmed.insert ?_
          rw [← (Csv.entryOf_eq_some_iff.mp entry).1]
          exact Text.trim_trim _

theorem trimmed_of_addRecords {path : String} {expected number : Nat}
    {columns after : List (Series Binary64)} {records : List Csv.Record}
    (trimmed : ∀ column ∈ columns, column.HasTrimmedKeys)
    (added : addRecords path expected number columns records = .ok after) :
    ∀ column ∈ after, column.HasTrimmedKeys := by
  obtain ⟨rows, -, -, rfl⟩ := addRecords_eq_ok_iff.mp added
  intro column member
  obtain ⟨position, inside, rfl⟩ := List.mem_mapIdx.mp member
  exact trimmed_foldl_putEntry (trimmed _ (List.getElem_mem inside)) rows position

/-! ### Records of texts -/

theorem checkRecord_of_fields {record : Csv.Record} {fields : List String} (number : Nat)
    (spelled : record.fields = (fields.map String.toList).map (List.map .char)) :
    checkRecord fields.length number record = .ok fields := by
  refine checkRecord_eq_ok_iff.mpr ⟨rfl, ?_⟩
  rw [spelled, Csv.texts_strings]

theorem addRecords_cons {path : String} {number : Nat} {columns next after : List (Series Binary64)}
    {record : Csv.Record} {records : List Csv.Record} {fields : List String}
    (spelled : record.fields = (fields.map String.toList).map (List.map .char))
    (added : addCells path (number + 1) (Text.trim (fields.head?.getD "")) columns fields.tail =
      .ok next)
    (addedRest : addRecords path fields.length (number + 1) next records = .ok after) :
    addRecords path fields.length number columns (record :: records) = .ok after := by
  apply Outcome.bind_eq_ok_iff.mpr
  refine ⟨fields, Outcome.mapError_eq_ok_iff.mpr (checkRecord_of_fields number spelled), ?_⟩
  apply Outcome.bind_eq_ok_iff.mpr
  exact ⟨next, added, addedRest⟩

/-- Once the rows are read, a file with a header of two or more fields has a table. -/
theorem ofRecords_of_added {path corner : String} {names : List String} {first : Csv.Record}
    {rest : List Csv.Record} {columns : List (Series Binary64)} {data : DataSet Binary64}
    (header : first.fields = ((corner :: names).map String.toList).map (List.map .char))
    (nonempty : names ≠ [])
    (added : addRecords path (names.length + 1) 1 (List.replicate names.length .empty) rest =
      .ok columns)
    (inserted : DataSet.empty.insertAll (names.zip columns) = .ok data) :
    ofRecords path (first :: rest) = .ok (restricted data) := by
  have texts : Csv.texts 0 first.fields = .ok (corner :: names) := by
    rw [header, Csv.texts_strings]
  have enough : ¬(corner :: names).length < 2 := by
    have positive : 0 < names.length := List.length_pos_iff.mpr nonempty
    rw [List.length_cons]
    omega
  apply Outcome.bind_eq_ok_iff.mpr
  refine ⟨_, Outcome.mapError_eq_ok_iff.mpr texts, ?_⟩
  apply Outcome.unless_eq_ok_iff.mpr
  refine ⟨enough, ?_⟩
  apply Outcome.bind_eq_ok_iff.mpr
  refine ⟨_, added, ?_⟩
  apply Outcome.bind_eq_ok_iff.mpr
  exact ⟨_, Outcome.mapError_eq_ok_iff.mpr inserted, rfl⟩

/-! ### Restricted data -/

theorem consistent_restricted {data : DataSet Binary64} (distinct : data.names.Nodup) :
    (restricted data).IsConsistent where
  keysDistinct := data.nodup_commonKeys
  namesDistinct := by
    unfold restricted names
    rw [DataSet.names_mapSeries]
    exact distinct
  columns := by
    intro named member key
    obtain ⟨before, inData, rfl⟩ := List.mem_map.mp member
    have common : data.commonKeys.contains key = true ↔ key ∈ data.commonKeys :=
      List.contains_iff_mem
    rw [Series.contains_filterKeys, common]
    apply and_iff_left_of_imp
    intro isCommon
    exact (DataSet.mem_commonKeys.mp isCommon).2 before inData
  counted := Nat.zero_le _

theorem trimmed_of_addKeyValues {workspace : Workspace} {inputs : List (String × String)}
    {data after : DataSet Binary64} (distinct : data.names.Nodup)
    (trimmed : ∀ named ∈ data.series, named.2.HasTrimmedKeys)
    (added : addKeyValues workspace data inputs = .ok after) :
    after.names.Nodup ∧ ∀ named ∈ after.series, named.2.HasTrimmedKeys := by
  induction inputs generalizing data with
  | nil =>
      cases added
      exact ⟨distinct, trimmed⟩
  | cons input rest ih =>
      obtain ⟨series, loaded, added⟩ := Outcome.bind_eq_ok_iff.mp added
      obtain ⟨next, inserted, added⟩ := Outcome.bind_eq_ok_iff.mp added
      have inserted := Outcome.mapError_eq_ok_iff.mp inserted
      refine ih (DataSet.nodup_insert distinct inserted) ?_ added
      rw [← (DataSet.insert_eq_ok_iff.mp inserted).2]
      exact List.forall_mem_append.mpr
        ⟨trimmed, List.forall_mem_singleton.mpr (trimmed_of_loadSeries loaded)⟩

/-- No category has a blank at either end. -/
def HasTrimmedKeys (table : Table) : Prop := ∀ key ∈ table.keys, Text.trim key = key

/-- A table that was loaded, from a comma-separated file or from key-value files. -/
def IsLoaded (table : Table) : Prop :=
  ∃ workspace, (∃ path, ofCsv workspace path = .ok table) ∨
    ∃ inputs, ofKeyValues workspace inputs = .ok table

/-- The data of a comma-separated file whose table was loaded. -/
theorem restricted_of_ofRecords {path : String} {records : List Csv.Record} {table : Table}
    (loaded : ofRecords path records = .ok table) :
    ∃ data : DataSet Binary64, data.names.Nodup ∧
      (∀ named ∈ data.series, named.2.HasTrimmedKeys) ∧ restricted data = table := by
  obtain ⟨header, _, loaded⟩ := Outcome.bind_eq_ok_iff.mp loaded
  obtain ⟨_, loaded⟩ := Outcome.unless_eq_ok_iff.mp loaded
  obtain ⟨columns, added, loaded⟩ := Outcome.bind_eq_ok_iff.mp loaded
  obtain ⟨data, inserted, same⟩ := Outcome.bind_eq_ok_iff.mp loaded
  have inserted := Outcome.mapError_eq_ok_iff.mp inserted
  have trimmed : ∀ column ∈ columns, column.HasTrimmedKeys := by
    refine trimmed_of_addRecords ?_ added
    intro column member
    rw [(List.mem_replicate.mp member).2]
    exact .empty
  refine ⟨data, DataSet.nodup_insertAll DataSet.nodup_names_empty inserted, ?_,
    Except.ok.inj same⟩
  rw [DataSet.series_insertAll inserted]
  intro named member
  exact trimmed named.2 (List.of_mem_zip member).2

/-- A loaded table is the restriction of a data set of distinct names and trimmed keys. -/
theorem IsLoaded.restricted {table : Table} (loaded : table.IsLoaded) :
    ∃ data : DataSet Binary64, data.names.Nodup ∧
      (∀ named ∈ data.series, named.2.HasTrimmedKeys) ∧ Table.restricted data = table := by
  obtain ⟨workspace, ⟨path, loaded⟩ | ⟨inputs, loaded⟩⟩ := loaded
  · unfold ofCsv at loaded
    split at loaded
    · cases loaded
    · cases loaded
    · exact restricted_of_ofRecords loaded
  · obtain ⟨data, added, same⟩ := Outcome.map_eq_ok_iff.mp loaded
    have start : ∀ named ∈ (DataSet.empty : DataSet Binary64).series, named.2.HasTrimmedKeys :=
      fun _ impossible => nomatch impossible
    obtain ⟨distinct, trimmed⟩ := trimmed_of_addKeyValues DataSet.nodup_names_empty start added
    exact ⟨data, distinct, trimmed, same⟩

theorem IsLoaded.consistent {table : Table} (loaded : table.IsLoaded) : table.IsConsistent := by
  obtain ⟨data, distinct, _, rfl⟩ := loaded.restricted
  exact consistent_restricted distinct

theorem IsLoaded.no_summaryKeys {table : Table} (loaded : table.IsLoaded) :
    table.summaryKeys = [] := by
  obtain ⟨data, _, _, rfl⟩ := loaded.restricted
  exact List.drop_length

theorem IsLoaded.trimmed {table : Table} (loaded : table.IsLoaded) : table.HasTrimmedKeys := by
  obtain ⟨data, _, trimmed, rfl⟩ := loaded.restricted
  intro key member
  obtain ⟨some, shared⟩ := DataSet.mem_commonKeys.mp member
  obtain ⟨named, inData⟩ := List.exists_mem_of_ne_nil _ some
  exact trimmed named inData key (shared named inData)

end Table

end TikzChart
