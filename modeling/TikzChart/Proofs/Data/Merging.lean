import TikzChart.Proofs.Data.Loading

/-!
Rows of one key in a comma-separated file. Whatever rows a key has, it is kept if each column has a
number in one of them, and its value in a column is the last of these numbers (`Table.MergesRows`).
So rows of different keys can change places, while a cell that cannot be read is never overlooked.
-/

set_option autoImplicit false

namespace TikzChart

/-! ### Sheets -/

namespace Csv

/-- The texts of the records of a file. -/
def Holds (content : ByteArray) (rows : List (List String)) : Prop :=
  List.Forall₂ (fun record row => texts 0 record.fields = .ok row)
    (records (Glyph.read content)) rows

/-- A header and rows that make up a table. -/
structure IsSheet (header : List String) (rows : List (List String)) : Prop where
  wide : 2 ≤ header.length
  distinct : header.tail.Nodup
  even : ∀ row ∈ rows, row.length = header.length
  readable : ∀ row ∈ rows, ∀ cell ∈ row.tail, IsReadable cell

theorem IsSheet.readable_cell {header : List String} {rows : List (List String)}
    (sheet : IsSheet header rows) {row : List String} (member : row ∈ rows) {column : Nat}
    (inside : column < header.tail.length) : IsReadable (cell row column) := by
  have within : column < row.tail.length := by
    rwa [List.length_tail, sheet.even row member, ← List.length_tail]
  unfold cell
  rw [List.getElem?_eq_getElem within]
  exact sheet.readable row member _ (List.getElem_mem within)

end Csv

namespace Table

/-- A column of rows: the numbers that stand in it, the last one of each key. -/
def columnOf (rows : List (List String)) (column : Nat) : Series Binary64 :=
  .ofList (rows.filterMap (Csv.entryOf column))

/-- The series of a sheet, under all of their keys. -/
def sheetData (header : List String) (rows : List (List String)) : DataSet Binary64 :=
  ⟨header.tail.mapIdx fun column name => (name, columnOf rows column)⟩

theorem names_sheetData (header : List String) (rows : List (List String)) :
    (sheetData header rows).names = header.tail := by
  unfold sheetData DataSet.names
  apply List.ext_getElem
  · simp
  · intro column _ _
    simp

theorem nodup_names_sheetData {header : List String} {rows : List (List String)}
    (sheet : Csv.IsSheet header rows) : (sheetData header rows).names.Nodup := by
  rw [names_sheetData]
  exact sheet.distinct

/-- What the rows make of empty columns. -/
def filledColumns (header : List String) (rows : List (List String)) : List (Series Binary64) :=
  (List.replicate header.tail.length .empty).mapIdx fun column series =>
    (rows.map (Csv.entryOf column)).foldl putEntry series

theorem zip_filledColumns (header : List String) (rows : List (List String)) :
    header.tail.zip (filledColumns header rows) = (sheetData header rows).series := by
  unfold filledColumns sheetData columnOf Series.ofList
  apply List.ext_getElem
  · simp
  · intro column _ _
    simp [foldl_putEntry]

theorem insertAll_sheetData {header : List String} {rows : List (List String)}
    (sheet : Csv.IsSheet header rows) :
    DataSet.empty.insertAll (sheetData header rows).series = .ok (sheetData header rows) :=
  DataSet.insertAll_of_nodup (nodup_names_sheetData sheet)

variable {path : String} {records : List Csv.Record} {table : Table}

theorem ofRecords_of_sheet {header : List String} {rows : List (List String)}
    (texts : List.Forall₂ (fun record row => Csv.texts 0 record.fields = .ok row) records
      (header :: rows)) (sheet : Csv.IsSheet header rows) :
    ofRecords path records = .ok (restricted (sheetData header rows)) := by
  obtain ⟨first, rest, isHeader, restTexts, rfl⟩ := List.forall₂_cons_right_iff.mp texts
  have added : addRecords path header.length 1 (List.replicate header.tail.length .empty) rest =
      .ok (filledColumns header rows) := by
    refine addRecords_eq_ok_iff.mpr ⟨rows, restTexts, ?_, rfl⟩
    intro row member
    refine ⟨sheet.even row member, ?_⟩
    rw [List.length_replicate]
    exact fun column inside => sheet.readable_cell member inside
  apply Outcome.bind_eq_ok_iff.mpr
  refine ⟨header, Outcome.mapError_eq_ok_iff.mpr isHeader, ?_⟩
  apply Outcome.unless_eq_ok_iff.mpr
  refine ⟨Nat.not_lt.mpr sheet.wide, ?_⟩
  apply Outcome.bind_eq_ok_iff.mpr
  refine ⟨_, added, ?_⟩
  rw [zip_filledColumns]
  apply Outcome.bind_eq_ok_iff.mpr
  exact ⟨_, Outcome.mapError_eq_ok_iff.mpr (insertAll_sheetData sheet), rfl⟩

theorem exists_sheet_of_ofRecords (loaded : ofRecords path records = .ok table) :
    ∃ header rows, List.Forall₂ (fun record row => Csv.texts 0 record.fields = .ok row) records
        (header :: rows) ∧
      Csv.IsSheet header rows ∧ restricted (sheetData header rows) = table := by
  obtain ⟨header, isHeader, loaded⟩ := Outcome.bind_eq_ok_iff.mp loaded
  obtain ⟨wide, loaded⟩ := Outcome.unless_eq_ok_iff.mp loaded
  obtain ⟨columns, added, loaded⟩ := Outcome.bind_eq_ok_iff.mp loaded
  obtain ⟨data, inserted, same⟩ := Outcome.bind_eq_ok_iff.mp loaded
  obtain ⟨rows, texts, sound, rfl⟩ := addRecords_eq_ok_iff.mp added
  have inserted : DataSet.empty.insertAll (header.tail.zip (filledColumns header rows)) =
      .ok data := Outcome.mapError_eq_ok_iff.mp inserted
  rw [zip_filledColumns] at inserted
  have isData : data = sheetData header rows := by
    obtain ⟨series⟩ := data
    exact congrArg DataSet.mk (DataSet.series_insertAll inserted)
  have distinct := DataSet.nodup_insertAll DataSet.nodup_names_empty inserted
  rw [isData, names_sheetData] at distinct
  rw [isData] at same
  have isHeader := Outcome.mapError_eq_ok_iff.mp isHeader
  cases records with
  | nil =>
      cases isHeader
      exact absurd Nat.zero_lt_two wide
  | cons first rest =>
      refine ⟨header, rows, .cons isHeader texts, ⟨Nat.le_of_not_lt wide, distinct, ?_, ?_⟩,
        Except.ok.inj same⟩
      · exact fun row member => (sound row member).1
      · intro row member cell inRow
        obtain ⟨even, readable⟩ := sound row member
        obtain ⟨column, inside, rfl⟩ := List.mem_iff_getElem.mp inRow
        have within : column < (List.replicate header.tail.length
            (Series.empty : Series Binary64)).length := by
          rwa [List.length_replicate, List.length_tail, ← even, ← List.length_tail]
        have cell := readable column within
        rwa [Csv.cell, List.getElem?_eq_getElem inside] at cell

end Table

/-! ### Rows of one key -/

namespace Csv

/-- The last cell of a column that is not blank, among the rows of a key. -/
def IsLastCell (rows : List (List String)) (column : Nat) (name content : String) : Prop :=
  ∃ before row behind, rows = before ++ row :: behind ∧ key row = name ∧
    Text.trim (cell row column) = content ∧ content ≠ "" ∧
    ∀ later ∈ behind, key later = name → Text.trim (cell later column) = ""

variable {header : List String} {rows : List (List String)}

/-- A row makes an entry in a column exactly if its cell there is not blank. -/
theorem IsSheet.exists_entry_iff (sheet : IsSheet header rows) {row : List String}
    (member : row ∈ rows) {column : Nat} (inside : column < header.tail.length) {name : String} :
    (∃ value, entryOf column row = some (name, value)) ↔
      key row = name ∧ Text.trim (cell row column) ≠ "" := by
  simp only [entryOf_eq_some_iff, exists_and_left]
  refine and_congr_right fun _ => ⟨?_, ?_⟩
  · rintro ⟨value, read⟩
    exact not_blank_of_number (number?_eq_some_iff.mpr read)
  · intro filled
    obtain ⟨value, found⟩ := exists_number (sheet.readable_cell member inside) filled
    exact ⟨value, number?_eq_some_iff.mp found⟩

end Csv

namespace Table

/-- What the rows under a header come to: the keys for which every column has a cell that is not
blank, in ascending order, and for each of them the number in the last such cell of each column. -/
structure MergesRows (header : List String) (rows : List (List String)) (table : Table) : Prop where
  names : table.names = header.tail
  ascending : table.keys.Pairwise (· < ·)
  kept : ∀ name, name ∈ table.keys ↔ ∀ column < header.tail.length,
    ∃ row ∈ rows, Csv.key row = name ∧ Text.trim (Csv.cell row column) ≠ ""
  values : ∀ name ∈ table.keys, ∀ column series, header.tail[column]? = some series →
    ∃ content value, Csv.IsLastCell rows column name content ∧
      Numeral.read content = .ok value ∧ table.value? series name = some value
  nothingElse : ∀ series name value, table.value? series name = some value →
    series ∈ header.tail ∧ name ∈ table.keys

variable {header : List String} {rows : List (List String)}

theorem contains_columnOf (sheet : Csv.IsSheet header rows) {column : Nat}
    (inside : column < header.tail.length) {name : String} :
    (columnOf rows column).contains name = true ↔
      ∃ row ∈ rows, Csv.key row = name ∧ Text.trim (Csv.cell row column) ≠ "" := by
  rw [columnOf, Series.contains_ofList_filterMap]
  exact exists_congr fun row => and_congr_right fun member => sheet.exists_entry_iff member inside

theorem isLastCell_of_get? (sheet : Csv.IsSheet header rows) {column : Nat}
    (inside : column < header.tail.length) {name : String} {value : Binary64}
    (found : (columnOf rows column).get? name = some value) :
    ∃ content, Csv.IsLastCell rows column name content ∧ Numeral.read content = .ok value := by
  obtain ⟨before, row, behind, split, entry, last⟩ := Series.get?_ofList_filterMap.mp found
  obtain ⟨isKey, read⟩ := Csv.entryOf_eq_some_iff.mp entry
  refine ⟨_, ⟨before, row, behind, split, isKey, rfl, ?_, ?_⟩, read⟩
  · exact Csv.not_blank_of_number (Csv.number?_eq_some_iff.mpr read)
  · intro later member sameKey
    by_contra filled
    have inRows : later ∈ rows := by simp [split, member]
    obtain ⟨other, hasEntry⟩ := (sheet.exists_entry_iff inRows inside).mpr ⟨sameKey, filled⟩
    exact last later member other hasEntry

theorem mem_sheetData {column : Nat} {series : String}
    (named : header.tail[column]? = some series) :
    (series, columnOf rows column) ∈ (sheetData header rows).series := by
  obtain ⟨inside, rfl⟩ := List.getElem?_eq_some_iff.mp named
  exact List.mem_mapIdx.mpr ⟨column, inside, rfl⟩

theorem mergesRows_sheet (sheet : Csv.IsSheet header rows) :
    MergesRows header rows (restricted (sheetData header rows)) where
  names := by
    unfold restricted names
    rw [DataSet.names_mapSeries, names_sheetData]
  ascending := DataSet.ascending_commonKeys _
  kept := by
    intro name
    have inhabited : (sheetData header rows).series ≠ [] := by
      intro empty
      have wide := sheet.wide
      have length := congrArg List.length empty
      rw [sheetData, List.length_mapIdx, List.length_tail, List.length_nil] at length
      omega
    unfold restricted
    rw [DataSet.mem_commonKeys, and_iff_right inhabited]
    constructor
    · intro shared column inside
      exact (contains_columnOf sheet inside).mp
        (shared _ (mem_sheetData (List.getElem?_eq_getElem inside)))
    · intro filled named member
      obtain ⟨column, inside, rfl⟩ := List.mem_mapIdx.mp member
      exact (contains_columnOf sheet inside).mpr (filled column inside)
  values := by
    intro name common column series named
    have inside : column < header.tail.length := (List.getElem?_eq_some_iff.mp named).1
    have held := DataSet.get?_of_mem (nodup_names_sheetData sheet) (mem_sheetData named)
    have isCommon : (sheetData header rows).commonKeys.contains name = true :=
      List.contains_iff_mem.mpr common
    have contained := (DataSet.mem_commonKeys.mp common).2 _ (mem_sheetData named)
    obtain ⟨value, found⟩ := Series.contains_iff_get?.mp contained
    obtain ⟨content, last, read⟩ := isLastCell_of_get? sheet inside found
    refine ⟨content, value, last, read, ?_⟩
    unfold value? restricted
    dsimp only
    rw [DataSet.get?_mapSeries, held, Option.map_some, Option.bind_some, Series.get?_filterKeys,
      if_pos isCommon, found]
  nothingElse := by
    intro series name value found
    have consistent := consistent_restricted (nodup_names_sheetData sheet)
    refine ⟨?_, consistent.mem_keys_of_value? found⟩
    obtain ⟨held, isHeld, -⟩ := Option.bind_eq_some_iff.mp found
    have isName := DataSet.isSome_get?.mp (Option.isSome_iff_exists.mpr ⟨held, isHeld⟩)
    rwa [restricted, DataSet.names_mapSeries, names_sheetData] at isName

end Table

/-! ### Rows in another order -/

namespace Csv

/-- Rows in another order that the table cannot tell: two neighbours of different keys have changed
places, or there is one row for each key. -/
inductive Reordered : List (List String) → List (List String) → Prop
  | exchanged {first second : List String} (before behind : List (List String))
      (different : key first ≠ key second) :
      Reordered (before ++ first :: second :: behind) (before ++ second :: first :: behind)
  | permuted {rows others : List (List String)} (distinct : (rows.map key).Nodup)
      (perm : others.Perm rows) : Reordered rows others

theorem Reordered.perm {rows others : List (List String)} (reordered : Reordered rows others) :
    others.Perm rows := by
  cases reordered with
  | exchanged before behind different => exact (List.Perm.swap _ _ _).append_left before
  | permuted distinct perm => exact perm

/-- The keys of the entries are among those of the rows. -/
theorem sublist_entries (rows : List (List String)) (column : Nat) :
    ((rows.filterMap (entryOf column)).map Prod.fst).Sublist (rows.map key) := by
  induction rows with
  | nil => exact .slnil
  | cons row rows ih =>
      rw [List.filterMap_cons, List.map_cons]
      cases entry : entryOf column row with
      | none => exact ih.cons _
      | some found =>
          dsimp only
          rw [List.map_cons, (entryOf_eq_some_iff.mp entry).1]
          exact ih.cons_cons _

theorem Reordered.columnOf_eq {rows others : List (List String)} (reordered : Reordered rows others)
    (column : Nat) : Table.columnOf others column = Table.columnOf rows column := by
  unfold Table.columnOf
  cases reordered with
  | @exchanged first second before behind different =>
      unfold Series.ofList
      rw [← Table.foldl_putEntry, ← Table.foldl_putEntry, List.map_append, List.map_append,
        List.foldl_append, List.foldl_append, List.map_cons, List.map_cons, List.map_cons,
        List.map_cons, List.foldl_cons, List.foldl_cons, List.foldl_cons, List.foldl_cons,
        Table.putEntry_comm]
      intro one other firstEntry secondEntry same
      have firstKey := (entryOf_eq_some_iff.mp firstEntry).1
      have secondKey := (entryOf_eq_some_iff.mp secondEntry).1
      exact different (firstKey.trans (same.trans secondKey.symm))
  | permuted distinct perm =>
      have entries := perm.filterMap (entryOf column)
      refine Series.ofList_perm entries ?_
      exact (entries.map Prod.fst).nodup_iff.mpr (distinct.sublist (sublist_entries rows column))

theorem Reordered.isSheet {header : List String} {rows others : List (List String)}
    (reordered : Reordered rows others) (sheet : IsSheet header rows) : IsSheet header others where
  wide := sheet.wide
  distinct := sheet.distinct
  even row member := sheet.even row (reordered.perm.mem_iff.mp member)
  readable row member := sheet.readable row (reordered.perm.mem_iff.mp member)

end Csv

/-! ### Files -/

instance (content : ByteArray) (rows : List (List String)) : Decidable (Csv.Holds content rows) :=
  decidable_of_iff ((Csv.records (Glyph.read content)).mapM (fun record =>
    Csv.texts 0 record.fields) = .ok rows) Outcome.mapM_eq_ok_iff

theorem Csv.Holds.unique {content : ByteArray} {rows others : List (List String)}
    (holds : Holds content rows) (alsoHolds : Holds content others) : rows = others :=
  Except.ok.inj <| (Outcome.mapM_eq_ok_iff.mpr holds).symm.trans <|
    Outcome.mapM_eq_ok_iff.mpr alsoHolds

namespace Table

variable {workspace : Workspace} {path : String} {content : ByteArray} {table : Table}

theorem ofCsv_eq_ok_iff (opened : workspace.open path = .ok (.file content)) :
    ofCsv workspace path = .ok table ↔ ∃ header rows, Csv.Holds content (header :: rows) ∧
      Csv.IsSheet header rows ∧ restricted (sheetData header rows) = table := by
  unfold ofCsv
  rw [opened]
  constructor
  · exact exists_sheet_of_ofRecords
  · rintro ⟨header, rows, holds, sheet, rfl⟩
    exact ofRecords_of_sheet holds sheet

theorem ofCsv_reordered {header : List String} {rows others : List (List String)}
    (opened : workspace.open path = .ok (.file content))
    (holds : Csv.Holds content (header :: others)) (reordered : Csv.Reordered rows others)
    (sheet : Csv.IsSheet header rows) :
    ofCsv workspace path = .ok (restricted (sheetData header rows)) := by
  have same : sheetData header others = sheetData header rows := by
    unfold sheetData
    simp only [reordered.columnOf_eq]
  exact (ofCsv_eq_ok_iff opened).mpr ⟨header, others, holds, reordered.isSheet sheet, by rw [same]⟩

end Table

/-- A comma-separated file that is accepted is loaded as what its rows come to, and so is any file
with its rows in an order that makes no difference. A cell that is neither blank nor a number keeps
a file from being loaded, wherever it stands. -/
theorem rows_merge_by_key {workspace : Workspace} {path : String} {content : ByteArray}
    (opened : workspace.open path = .ok (.file content)) :
    (∀ table, Table.ofCsv workspace path = .ok table →
      ∃ header rows, Csv.Holds content (header :: rows) ∧ Table.MergesRows header rows table ∧
        ∀ (elsewhere : Workspace) (other : String) (otherContent : ByteArray) (others : _),
          elsewhere.open other = .ok (.file otherContent) →
          Csv.Holds otherContent (header :: others) → Csv.Reordered rows others →
          Table.ofCsv elsewhere other = .ok table) ∧
    ∀ header rows, Csv.Holds content (header :: rows) →
      (∃ row ∈ rows, ∃ cell ∈ row.tail, Text.trim cell ≠ "" ∧
        ∀ value, Numeral.read (Text.trim cell) ≠ .ok value) →
      ∃ cause, Table.ofCsv workspace path = .error cause := by
  constructor
  · intro table loaded
    obtain ⟨header, rows, holds, sheet, rfl⟩ := (Table.ofCsv_eq_ok_iff opened).mp loaded
    refine ⟨header, rows, holds, Table.mergesRows_sheet sheet, ?_⟩
    intro elsewhere other otherContent others otherOpened otherHolds reordered
    exact Table.ofCsv_reordered otherOpened otherHolds reordered sheet
  · rintro header rows holds ⟨row, inRows, cell, inRow, filled, noNumber⟩
    cases loaded : Table.ofCsv workspace path with
    | error cause => exact ⟨cause, rfl⟩
    | ok table =>
        obtain ⟨sameHeader, sameRows, alsoHolds, sheet, -⟩ :=
          (Table.ofCsv_eq_ok_iff opened).mp loaded
        obtain ⟨rfl, rfl⟩ := List.cons.inj (holds.unique alsoHolds)
        rcases sheet.readable row inRows cell inRow with blank | ⟨value, read⟩
        · exact absurd blank filled
        · exact absurd read (noNumber value)

/-- Rows of two keys that complete and override one another, in both orders of the first two. The
row of a third key has a blank in one column and is dropped, but not if its other cell is no number.
-/
theorem repeatedRows_merged :
    let sheet (text : String) : Workspace := { tree := ⟨[(["sheet.csv"], .file text.toUTF8)]⟩ }
    let merged := sheet "key,base,opt\n gcc ,1,\nmcf,2,3\ngcc,,4\nmcf,5,\nlbm,6,\n"
    let exchanged := sheet "key,base,opt\nmcf,2,3\n gcc ,1,\ngcc,,4\nmcf,5,\nlbm,6,\n"
    let broken := sheet "key,base,opt\n gcc ,1,\nmcf,2,3\ngcc,,4\nmcf,5,\nlbm,6s,\n"
    let table : Table :=
      { keys := ["gcc", "mcf"]
        data := ⟨[("base", .ofList [("gcc", .ofFloat 1), ("mcf", .ofFloat 5)]),
          ("opt", .ofList [("gcc", .ofFloat 4), ("mcf", .ofFloat 3)])]⟩ }
    Table.ofCsv merged "sheet.csv" = .ok table ∧ Table.ofCsv exchanged "sheet.csv" = .ok table ∧
      ∃ cause, Table.ofCsv broken "sheet.csv" = .error cause := by
  intro sheet merged exchanged broken table
  have loaded : Table.ofCsv merged "sheet.csv" = .ok table := by decide +kernel
  refine ⟨loaded, ?_, ?_⟩
  · obtain ⟨header, rows, holds, -, elsewhere⟩ := (rows_merge_by_key (by rfl)).1 table loaded
    have known : Csv.Holds "key,base,opt\n gcc ,1,\nmcf,2,3\ngcc,,4\nmcf,5,\nlbm,6,\n".toUTF8
        [["key", "base", "opt"], [" gcc ", "1", ""], ["mcf", "2", "3"], ["gcc", "", "4"],
          ["mcf", "5", ""], ["lbm", "6", ""]] := by decide +kernel
    have exchangedHolds : Csv.Holds
        "key,base,opt\nmcf,2,3\n gcc ,1,\ngcc,,4\nmcf,5,\nlbm,6,\n".toUTF8
        [["key", "base", "opt"], ["mcf", "2", "3"], [" gcc ", "1", ""], ["gcc", "", "4"],
          ["mcf", "5", ""], ["lbm", "6", ""]] := by decide +kernel
    obtain ⟨rfl, rfl⟩ := List.cons.inj (holds.unique known)
    exact elsewhere exchanged "sheet.csv" _ _ rfl exchangedHolds
      (.exchanged [] _ (by decide +kernel))
  · have holds : Csv.Holds "key,base,opt\n gcc ,1,\nmcf,2,3\ngcc,,4\nmcf,5,\nlbm,6s,\n".toUTF8
        [["key", "base", "opt"], [" gcc ", "1", ""], ["mcf", "2", "3"], ["gcc", "", "4"],
          ["mcf", "5", ""], ["lbm", "6s", ""]] := by decide +kernel
    have filled : Text.trim "6s" ≠ "" := by decide +kernel
    refine (rows_merge_by_key (by rfl)).2 _ _ holds
      ⟨["lbm", "6s", ""], by simp, "6s", by simp, filled, ?_⟩
    intro value read
    cases read

end TikzChart
