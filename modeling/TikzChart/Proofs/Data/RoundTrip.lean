import TikzChart.Proofs.Data.Listing
import TikzChart.Proofs.Data.Rereading
import TikzChart.Proofs.Text.ByteOrder

/-!
Tables that are written as comma-separated text and loaded again. The names come back as they are,
the categories in the order of their bytes, and every value as its text is read.
-/

set_option autoImplicit false

namespace TikzChart

namespace Table

variable {table : Table} {rows : List (List Binary64)} {digits : Nat}

/-! ### What is written -/

/-- The categories with the values under them. -/
def writtenRows (table : Table) (rows : List (List Binary64)) : List (String × List Binary64) :=
  table.keys.mapIdx fun position key => (key, column rows position)

def headerFields (table : Table) : List (List Char) :=
  "key".toList :: table.names.map String.toList

theorem map_fst_writtenRows (table : Table) (rows : List (List Binary64)) :
    (table.writtenRows rows).map Prod.fst = table.keys := by
  unfold writtenRows
  rw [List.mapIdx_eq_zipIdx_map, List.map_map]
  exact List.zipIdx_map_fst 0 table.keys

theorem listed_writtenRows (has : table.HasRows rows) :
    ∀ row ∈ table.writtenRows rows,
      row.2.map some = table.data.series.map fun named => named.2.get? row.1 := by
  intro row member
  obtain ⟨position, inside, rfl⟩ := List.mem_mapIdx.mp member
  exact has.column inside

theorem toList_written (table : Table) (rows : List (List Binary64)) :
    (table.headerText ++ String.join (table.keys.mapIdx fun position key =>
      recordText digits key (column rows position))).toList =
    (table.headerFields :: (table.writtenRows rows).map (rowFields digits)).flatMap
      Csv.writeRecord := by
  have records : (table.keys.mapIdx fun position key =>
      recordText digits key (column rows position)) =
      (table.writtenRows rows).map fun row => recordText digits row.1 row.2 := by
    unfold writtenRows
    rw [List.mapIdx_eq_zipIdx_map, List.mapIdx_eq_zipIdx_map, List.map_map]
    rfl
  have record (row : String × List Binary64) :
      (recordText digits row.1 row.2).toList = Csv.writeRecord (rowFields digits row) :=
    String.toList_ofList
  rw [records, String.toList_append, String.toList_join, List.flatMap_map, List.flatMap_cons,
    List.flatMap_map]
  simp only [record]
  rw [headerText, String.toList_ofList]
  rfl

/-! ### What is read -/

/-- The data that the text of a table is read as. -/
def rereadData (table : Table) (digits : Nat) : DataSet Binary64 :=
  table.data.mapSeries fun _ series => series.map (Binary64.reread digits)

theorem insertAll_reread (digits : Nat) (consistent : table.IsConsistent) :
    DataSet.empty.insertAll (table.names.zip
      (table.data.series.map fun series => series.2.map (Binary64.reread digits))) =
      .ok (table.rereadData digits) := by
  have paired : table.names.zip
      (table.data.series.map fun series => series.2.map (Binary64.reread digits)) =
      (table.rereadData digits).series := by
    unfold names DataSet.names
    rw [List.zip_map']
    rfl
  have distinct : ((DataSet.empty : DataSet Binary64).names ++
      (table.rereadData digits).series.map Prod.fst).Nodup := by
    have sameNames : (table.rereadData digits).names = table.names := table.data.names_mapSeries _
    have namesDistinct := consistent.namesDistinct
    rw [← sameNames] at namesDistinct
    exact namesDistinct
  rw [paired, DataSet.insertAll_of_nodup distinct]
  rfl

theorem addRecords_writtenRows (path : String) {records : List Csv.Record}
    (consistent : table.IsConsistent) (trimmed : table.HasTrimmedKeys)
    (hasRows : table.HasRows rows)
    (written : records.map Csv.Record.fields =
      (table.writtenRows rows).map fun row => (rowFields digits row).map (List.map .char)) :
    addRecords path (table.names.length + 1) 1 (List.replicate table.names.length .empty) records =
      .ok (table.data.series.map fun series => series.2.map (Binary64.reread digits)) := by
  have listed := listed_writtenRows hasRows
  have keys : (table.writtenRows rows).map Prod.fst = table.keys := table.map_fst_writtenRows rows
  have size : table.names.length = table.data.series.length := List.length_map _
  have start : (List.replicate table.names.length (Series.empty : Series Binary64)).length =
      table.names.length := List.length_replicate
  have trimmedRows : ∀ row ∈ table.writtenRows rows, Text.trim row.1 = row.1 := by
    intro row member
    apply trimmed
    rw [← keys]
    exact List.mem_map_of_mem member
  have complete : ∀ row ∈ table.writtenRows rows, row.2.length =
      (List.replicate table.names.length (Series.empty : Series Binary64)).length := by
    intro row member
    have lengths := congrArg List.length (listed row member)
    rw [List.length_map, List.length_map] at lengths
    rw [start, size, lengths]
  have has : ∀ series ∈ table.data.series,
      series.2.HasKeys ((table.writtenRows rows).map Prod.fst) := by
    rw [keys]
    exact consistent.columns
  have added := addRecords_written path 1 written trimmedRows complete
  rw [start, size, foldl_addRow_of_hasKeys listed has] at added
  rw [size]
  exact added

theorem ofRecords_written (path : String) {records : List Csv.Record}
    (consistent : table.IsConsistent) (trimmed : table.HasTrimmedKeys)
    (nonempty : table.data.series ≠ [])
    (hasRows : table.HasRows rows)
    (written : records.map Csv.Record.fields =
      (table.headerFields :: (table.writtenRows rows).map (rowFields digits)).map
        (List.map (List.map .char))) :
    ofRecords path records = .ok (restricted (table.rereadData digits)) := by
  cases records with
  | nil => cases written
  | cons first rest =>
      rw [List.map_cons, List.map_cons, List.map_map] at written
      obtain ⟨writtenFirst, writtenRest⟩ := List.cons.inj written
      have header : first.fields =
          (("key" :: table.names).map String.toList).map (List.map .char) := writtenFirst
      have named : table.names ≠ [] := fun empty => nonempty (List.map_eq_nil_iff.mp empty)
      exact ofRecords_of_added header named
        (addRecords_writtenRows path consistent trimmed hasRows writtenRest)
        (insertAll_reread digits consistent)

theorem fields_of_text (table : Table) (rows : List (List Binary64)) :
    let text := table.headerText ++ String.join (table.keys.mapIdx fun position key =>
      recordText digits key (column rows position))
    (Csv.records (Glyph.read text.toUTF8)).map Csv.Record.fields =
      (table.headerFields :: (table.writtenRows rows).map (rowFields digits)).map
        (List.map (List.map .char)) := by
  intro text
  have written : text.toList =
      (table.headerFields :: (table.writtenRows rows).map (rowFields digits)).flatMap
        Csv.writeRecord := toList_written table rows
  have nonempty : ∀ fields ∈ table.headerFields :: (table.writtenRows rows).map (rowFields digits),
      fields ≠ [] := by
    refine List.forall_mem_cons.mpr ⟨List.cons_ne_nil _ _, ?_⟩
    intro fields member
    obtain ⟨row, _, rfl⟩ := List.mem_map.mp member
    exact List.cons_ne_nil _ _
  have spells := Csv.spells_written nonempty
  -- The text begins with the word `key`, so nothing is taken for a byte order mark.
  have noMark := spells.no_mark (by decide)
  rw [Glyph.read_toUTF8, written]
  exact Csv.fields_of_spelled spells noMark

/-- The text of a consistent table is loaded as the table of the values that it shows. -/
theorem ofCsv_written {workspace : Workspace} {path text : String}
    (consistent : table.IsConsistent) (trimmed : table.HasTrimmedKeys)
    (nonempty : table.data.series ≠ []) (few : digits ≤ maxDecimals)
    (written : table.text digits true = .ok text)
    (opened : workspace.open path = .ok (.file text.toUTF8)) :
    ofCsv workspace path = .ok (restricted (table.rereadData digits)) := by
  obtain ⟨rows, listed, hasRows⟩ := consistent.listed
  rw [text_of_rows listed few true, if_pos rfl] at written
  cases written
  unfold ofCsv
  rw [opened]
  exact ofRecords_written path consistent trimmed nonempty hasRows (fields_of_text table rows)

/-! ### The table that comes back -/

theorem mem_commonKeys_rereadData (digits : Nat) (consistent : table.IsConsistent)
    (nonempty : table.data.series ≠ []) (key : String) :
    key ∈ (table.rereadData digits).commonKeys ↔ key ∈ table.keys := by
  rw [DataSet.mem_commonKeys]
  constructor
  · rintro ⟨_, shared⟩
    obtain ⟨named, inTable⟩ := List.exists_mem_of_ne_nil _ nonempty
    have contained := shared _ (List.mem_map_of_mem inTable)
    rw [Series.contains_map] at contained
    exact (consistent.columns named inTable key).mp contained
  · intro inKeys
    refine ⟨fun empty => nonempty (List.map_eq_nil_iff.mp empty), ?_⟩
    intro named member
    obtain ⟨before, inTable, rfl⟩ := List.mem_map.mp member
    rw [Series.contains_map]
    exact (consistent.columns before inTable key).mpr inKeys

theorem value?_restricted_rereadData {name key : String} {value : Binary64}
    (known : key ∈ (table.rereadData digits).commonKeys)
    (found : table.value? name key = some value) :
    (restricted (table.rereadData digits)).value? name key = some (value.reread digits) := by
  obtain ⟨series, named, under⟩ := Option.bind_eq_some_iff.mp found
  have common : (table.rereadData digits).commonKeys.contains key = true :=
    List.contains_iff_mem.mpr known
  have reread : (table.rereadData digits).get? name =
      some (series.map (Binary64.reread digits)) := by
    rw [rereadData, DataSet.get?_mapSeries, named, Option.map_some]
  unfold value? restricted
  dsimp only
  rw [DataSet.get?_mapSeries, reread, Option.map_some, Option.bind_some, Series.get?_filterKeys,
    if_pos common, Series.get?_map, under, Option.map_some]

theorem trimmed_of_change {next : Table} {mean? : Option String}
    (trimmed : table.HasTrimmedKeys)
    (new : ∀ key ∈ mean?, Text.trim key = key) (change : table.Change mean? next) :
    next.HasTrimmedKeys := by
  cases change with
  | divided base => exact trimmed
  | sorted perm =>
      intro key member
      apply trimmed
      rw [← table.dataKeys_append_summaryKeys]
      exact (perm.append_right table.summaryKeys).mem_iff.mp member
  | @summarized key summary columns fresh complete =>
      exact List.forall_mem_append.mpr ⟨trimmed, List.forall_mem_singleton.mpr (new key rfl)⟩
  | ignored name => exact trimmed

theorem trimmed_after {transforms : List Transform}
    (trimmed : table.HasTrimmedKeys)
    (new : ∀ transform ∈ transforms, ∀ key ∈ transform.mean?, Text.trim key = key) :
    (table.after transforms).HasTrimmedKeys := by
  apply Step.stateAfter_induction trimmed
  intro step member current here
  obtain ⟨transform, inTransforms, rfl⟩ := List.mem_map.mp member
  rcases transform.run current with ⟨cause, ran, _⟩ | ⟨next, ran, change⟩
  · rw [ran]
    exact here
  · rw [ran]
    exact trimmed_of_change here (new transform inTransforms) change

end Table

/-- A table that was loaded and transformed, the names of its means being free of blanks at their
ends, comes back when its text is loaded: with the same names in the same order, with its categories
in the order of their bytes, and with every value as it was written. -/
theorem table_text_round_trip {table : Table} (loaded : table.IsLoaded)
    {transforms : List Transform}
    (trimmed : ∀ transform ∈ transforms, ∀ key ∈ transform.mean?, Text.trim key = key)
    (nonempty : (table.after transforms).data.series ≠ [])
    {digits : Nat} (few : digits ≤ Table.maxDecimals) :
    let current := table.after transforms
    ∃ text, current.text digits true = .ok text ∧
      ∀ (workspace : Workspace) (path : String),
        workspace.open path = .ok (.file text.toUTF8) →
        ∃ reloaded, Table.ofCsv workspace path = .ok reloaded ∧
          reloaded.names = current.names ∧
          reloaded.keys.Perm current.keys ∧
          reloaded.keys.Pairwise (fun first second => Text.bytes first < Text.bytes second) ∧
          ∀ name key value, current.value? name key = some value →
            ∃ printed, Numeral.read (Decimal.fixedText value.toFloat digits) = .ok printed ∧
              reloaded.value? name key = some printed := by
  intro current
  have consistent : current.IsConsistent := loaded.consistent.after transforms
  obtain ⟨rows, listed, _⟩ := consistent.listed
  have written := Table.text_of_rows listed few true
  have known := Table.mem_commonKeys_rereadData digits consistent nonempty
  refine ⟨_, written, ?_⟩
  intro workspace path opened
  have read := Table.ofCsv_written consistent (Table.trimmed_after loaded.trimmed trimmed) nonempty
    few written opened
  refine ⟨_, read, ?_, ?_, ?_, ?_⟩
  · exact (DataSet.names_mapSeries _ _).trans (DataSet.names_mapSeries _ _)
  · have distinct := DataSet.nodup_commonKeys (current.rereadData digits)
    exact (List.perm_ext_iff_of_nodup distinct consistent.keysDistinct).mpr known
  · exact (DataSet.ascending_commonKeys _).imp Text.bytes_lt_bytes
  · intro name key value found
    have inTable : key ∈ current.keys := consistent.mem_keys_of_value? found
    exact ⟨value.reread digits, value.read_fixedText digits,
      Table.value?_restricted_rereadData ((known key).mpr inTable) found⟩

/-- Names and categories that need quotes or look as if they did, one name and one category without
a character, and values that are no numbers. -/
def unruly : Workspace :=
  { tree := ⟨[(["in.csv"], .file ("key,\"a,b\",\n\"say \"\"x\"\"\",1,NaN\n" ++
      "\"l\r\nf\",inf,-inf\n#é,2.005,-0\n,3,4\n").toUTF8)]⟩ }

def unrulyTable : Table :=
  { keys := ["", "#é", "l\r\nf", "say \"x\""]
    data := ⟨[
      ("a,b", .ofList [("", .ofFloat 3), ("#é", .ofFloat 2.005),
        ("l\r\nf", .ofMagnitude false Binary64.infinityMagnitude), ("say \"x\"", .ofFloat 1)]),
      ("", .ofList [("", .ofFloat 4), ("#é", .ofFloat (-0.0)),
        ("l\r\nf", .ofMagnitude true Binary64.infinityMagnitude),
        ("say \"x\"", .ofMagnitude false Binary64.nanMagnitude)])]⟩ }

/-- A workspace with a text in one file. -/
def Workspace.holding (text : String) : Workspace :=
  { tree := ⟨[(["out.csv"], .file text.toUTF8)]⟩ }

theorem unrulyTable_comes_back :
    unrulyTable.IsLoaded ∧
    ∃ text reloaded, (unrulyTable.after [.appendAmean "amean"]).text 2 true = .ok text ∧
      Table.ofCsv (.holding text) "out.csv" = .ok reloaded ∧ reloaded.names = ["a,b", ""] ∧
      reloaded.keys.Perm ["", "#é", "l\r\nf", "say \"x\"", "amean"] ∧
      reloaded.value? "a,b" "#é" = some (.ofFloat 2) := by
  have loaded : unrulyTable.IsLoaded := ⟨unruly, .inl ⟨"in.csv", by decide +kernel⟩⟩
  have trimmed : ∀ transform ∈ [Transform.appendAmean "amean"], ∀ key ∈ transform.mean?,
      Text.trim key = key := by decide +kernel
  have nonempty : (unrulyTable.after [.appendAmean "amean"]).data.series ≠ [] := by
    decide +kernel
  have few : 2 ≤ Table.maxDecimals := by decide
  have names : (unrulyTable.after [.appendAmean "amean"]).names = ["a,b", ""] := by
    decide +kernel
  have keys : (unrulyTable.after [.appendAmean "amean"]).keys =
      ["", "#é", "l\r\nf", "say \"x\"", "amean"] := by decide +kernel
  have value : (unrulyTable.after [.appendAmean "amean"]).value? "a,b" "#é" =
      some (.ofFloat 2.005) := by decide +kernel
  have rounded : Numeral.read (Decimal.fixedText (Binary64.ofFloat 2.005).toFloat 2) =
      .ok (.ofFloat 2) := by decide +kernel
  obtain ⟨text, written, comesBack⟩ := table_text_round_trip loaded trimmed nonempty few
  obtain ⟨reloaded, read, sameNames, sameKeys, _, values⟩ :=
    comesBack (.holding text) "out.csv" rfl
  obtain ⟨printed, readPrinted, there⟩ := values "a,b" "#é" _ value
  rw [rounded] at readPrinted
  cases readPrinted
  exact ⟨loaded, text, reloaded, written, read, sameNames.trans names, keys ▸ sameKeys, there⟩

end TikzChart
