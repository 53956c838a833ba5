import TikzChart.Data.Load
import TikzChart.Proofs.Data.Csv
import TikzChart.Proofs.Data.Series

/-!
The columns that the rows of a comma-separated file fill. Each row is as long as the header, each of
its cells is blank or a number, and the numbers go into the columns under the key of the row, one
row after the other (`Table.addRecords_eq_ok_iff`).
-/

set_option autoImplicit false

namespace TikzChart

/-! ### Cells -/

namespace Csv

/-- The key of a row. -/
def key (row : List String) : String := Text.trim (row.head?.getD "")

/-- What a row has in a column; the columns count from 0 behind the key. -/
def cell (row : List String) (column : Nat) : String := row.tail[column]?.getD ""

/-- A cell that is blank or a number. -/
def IsReadable (cell : String) : Prop :=
  Text.trim cell = "" ∨ ∃ value, Numeral.read (Text.trim cell) = .ok value

def number? (cell : String) : Option Binary64 := (Numeral.read (Text.trim cell)).toOption

/-- The entry that a row makes in a column. -/
def entryOf (column : Nat) (row : List String) : Option (String × Binary64) :=
  (number? (cell row column)).map fun value => (key row, value)

theorem number?_eq_some_iff {cell : String} {value : Binary64} :
    number? cell = some value ↔ Numeral.read (Text.trim cell) = .ok value := by
  unfold number?
  cases Numeral.read (Text.trim cell) with
  | error cause => exact iff_of_false nofun nofun
  | ok found => rw [Except.toOption, Option.some.injEq, Except.ok.injEq]

theorem not_blank_of_number {cell : String} {value : Binary64} (found : number? cell = some value) :
    Text.trim cell ≠ "" := by
  intro blank
  rw [number?_eq_some_iff, blank] at found
  cases found

theorem entryOf_eq_some_iff {column : Nat} {row : List String} {name : String} {value : Binary64} :
    entryOf column row = some (name, value) ↔
      key row = name ∧ Numeral.read (Text.trim (cell row column)) = .ok value := by
  unfold entryOf
  rw [Option.map_eq_some_iff, ← number?_eq_some_iff]
  constructor
  · rintro ⟨found, isNumber, same⟩
    cases same
    exact ⟨rfl, isNumber⟩
  · rintro ⟨rfl, isNumber⟩
    exact ⟨value, isNumber, rfl⟩

theorem exists_number {cell : String} (readable : IsReadable cell)
    (filled : Text.trim cell ≠ "") : ∃ value, number? cell = some value := by
  obtain ⟨value, read⟩ := readable.resolve_left filled
  exact ⟨value, number?_eq_some_iff.mpr read⟩

end Csv

/-! ### Columns -/

namespace Table

/-- Puts an entry into a series, if there is one. -/
def putEntry (series : Series Binary64) (entry : Option (String × Binary64)) : Series Binary64 :=
  entry.elim series fun entry => series.insert entry.1 entry.2

theorem foldl_putEntry (rows : List (List String)) (column : Nat) (series : Series Binary64) :
    (rows.map (Csv.entryOf column)).foldl putEntry series =
      (rows.filterMap (Csv.entryOf column)).foldl
        (fun series entry => series.insert entry.1 entry.2) series := by
  induction rows generalizing series with
  | nil => rfl
  | cons row rows ih =>
      rw [List.map_cons, List.foldl_cons, List.filterMap_cons, ih]
      cases Csv.entryOf column row with
      | none => rfl
      | some entry => rfl

theorem putEntry_comm {series : Series Binary64} {first second : Option (String × Binary64)}
    (different : ∀ one other, first = some one → second = some other → one.1 ≠ other.1) :
    putEntry (putEntry series second) first = putEntry (putEntry series first) second := by
  cases first with
  | none => rfl
  | some one =>
      cases second with
      | none => rfl
      | some other =>
          refine Series.insert_comm (fun same => ?_) series
          exact absurd same.symm (different one other rfl rfl)

variable {path key : String} {row number expected : Nat}

theorem addCell_eq_ok_iff {column after : Series Binary64} {cell : String} :
    addCell path row key column cell = .ok after ↔
      Csv.IsReadable cell ∧
        putEntry column ((Csv.number? cell).map fun value => (key, value)) = after := by
  unfold addCell Csv.IsReadable Csv.number?
  dsimp only
  by_cases blank : Text.trim cell = ""
  · rw [blank, if_pos (String.isEmpty_iff.mpr rfl), and_iff_right (.inl rfl), Except.ok.injEq]
    exact Iff.rfl
  · rw [if_neg (fun empty => blank (String.isEmpty_iff.mp empty)), or_iff_right blank]
    cases Numeral.read (Text.trim cell) with
    | error cause => exact iff_of_false nofun nofun
    | ok value =>
        rw [and_iff_right ⟨value, rfl⟩, Except.ok.injEq]
        exact Iff.rfl

theorem addCells_eq_ok_iff {columns after : List (Series Binary64)} {cells : List String} :
    addCells path row key columns cells = .ok after ↔
      (∀ column < columns.length, Csv.IsReadable (cells[column]?.getD "")) ∧
        (columns.mapIdx fun column series => putEntry series
          ((Csv.number? (cells[column]?.getD "")).map fun value => (key, value))) = after := by
  induction columns generalizing cells after with
  | nil =>
      rw [addCells, Except.ok.injEq]
      exact (and_iff_right nofun).symm
  | cons series columns ih =>
      have head : cells.head?.getD "" = cells[0]?.getD "" := by rw [List.head?_eq_getElem?]
      have behind (after : List (Series Binary64)) :
          addCells path row key columns cells.tail = .ok after ↔ _ := ih
      simp only [List.getElem?_tail] at behind
      rw [addCells, List.length_cons, Nat.forall_lt_succ_left, List.mapIdx_cons, head]
      constructor
      · intro added
        obtain ⟨first, addedFirst, added⟩ := Outcome.bind_eq_ok_iff.mp added
        obtain ⟨others, addedOthers, same⟩ := Outcome.bind_eq_ok_iff.mp added
        obtain ⟨readable, rfl⟩ := addCell_eq_ok_iff.mp addedFirst
        obtain ⟨readableOthers, rfl⟩ := (behind _).mp addedOthers
        exact ⟨⟨readable, readableOthers⟩, Except.ok.inj same⟩
      · rintro ⟨⟨readable, readableOthers⟩, rfl⟩
        exact Outcome.bind_eq_ok_iff.mpr ⟨_, addCell_eq_ok_iff.mpr ⟨readable, rfl⟩,
          Outcome.bind_eq_ok_iff.mpr ⟨_, (behind _).mpr ⟨readableOthers, rfl⟩, rfl⟩⟩

theorem checkRecord_eq_ok_iff {record : Csv.Record} {fields : List String} :
    checkRecord expected number record = .ok fields ↔
      fields.length = expected ∧ Csv.texts 0 record.fields = .ok fields := by
  unfold checkRecord
  by_cases even : record.fields.length = expected
  · rw [if_neg (not_not.mpr even), Outcome.mapError_eq_ok_iff]
    exact (and_iff_right_of_imp fun isText => (Csv.length_texts isText).trans even).symm
  · rw [if_pos even]
    refine iff_of_false nofun ?_
    rintro ⟨length, isText⟩
    exact even ((Csv.length_texts isText).symm.trans length)

/-- The rows go into the columns one after the other. -/
theorem addRecords_eq_ok_iff {columns after : List (Series Binary64)} {records : List Csv.Record} :
    addRecords path expected number columns records = .ok after ↔
      ∃ rows, List.Forall₂ (fun record row => Csv.texts 0 record.fields = .ok row) records rows ∧
        (∀ row ∈ rows, row.length = expected ∧
          ∀ column < columns.length, Csv.IsReadable (Csv.cell row column)) ∧
        (columns.mapIdx fun column series =>
          (rows.map (Csv.entryOf column)).foldl putEntry series) = after := by
  induction records generalizing columns number with
  | nil =>
      have unchanged : (columns.mapIdx fun column series =>
          (([] : List (List String)).map (Csv.entryOf column)).foldl putEntry series) = columns :=
        List.mapIdx_eq_iff.mpr fun _ => Option.map_id'.symm
      rw [addRecords, Except.ok.injEq]
      constructor
      · rintro rfl
        exact ⟨[], .nil, List.forall_mem_nil _, unchanged⟩
      · rintro ⟨rows, texts, -, same⟩
        rw [List.forall₂_nil_left_iff.mp texts, unchanged] at same
        exact same
  | cons record records ih =>
      constructor
      · intro added
        obtain ⟨fields, checked, added⟩ := Outcome.bind_eq_ok_iff.mp added
        obtain ⟨next, addedRow, added⟩ := Outcome.bind_eq_ok_iff.mp added
        obtain ⟨even, isText⟩ := checkRecord_eq_ok_iff.mp (Outcome.mapError_eq_ok_iff.mp checked)
        obtain ⟨readable, rfl⟩ := addCells_eq_ok_iff.mp addedRow
        obtain ⟨rows, texts, sound, same⟩ := ih.mp added
        rw [List.mapIdx_mapIdx] at same
        rw [List.length_mapIdx] at sound
        exact ⟨fields :: rows, .cons isText texts,
          List.forall_mem_cons.mpr ⟨⟨even, readable⟩, sound⟩, same⟩
      · rintro ⟨rows, texts, sound, same⟩
        obtain ⟨fields, rest, isText, restTexts, rfl⟩ := List.forall₂_cons_left_iff.mp texts
        obtain ⟨⟨even, readable⟩, sound⟩ := List.forall_mem_cons.mp sound
        apply Outcome.bind_eq_ok_iff.mpr
        refine ⟨fields, Outcome.mapError_eq_ok_iff.mpr
          (checkRecord_eq_ok_iff.mpr ⟨even, isText⟩), ?_⟩
        apply Outcome.bind_eq_ok_iff.mpr
        refine ⟨_, addCells_eq_ok_iff.mpr ⟨readable, rfl⟩, ih.mpr ⟨rest, restTexts, ?_, ?_⟩⟩
        · rw [List.length_mapIdx]
          exact sound
        · rw [List.mapIdx_mapIdx]
          exact same

end Table

end TikzChart
