import TikzChart.Data.TableText
import TikzChart.Proofs.Data.Csv
import TikzChart.Proofs.Data.Loading
import TikzChart.Proofs.Decimal.FixedText

/-!
Values that are written with a number of decimals and read again. Row by row the written cells put
what they are read as into the columns, and in the end every column holds what its series held, each
value in the form that its text has (`Binary64.reread`).
-/

set_option autoImplicit false

namespace TikzChart

/-! ### Values -/

/-- What a value is read as after it was written with a number of decimals. -/
def Binary64.reread (digits : Nat) (value : Binary64) : Binary64 :=
  match Numeral.read (Decimal.fixedText value.toFloat digits) with
  | .ok datum => datum
  | .error _ => value

theorem Binary64.read_fixedText (digits : Nat) (value : Binary64) :
    Numeral.read (Decimal.fixedText value.toFloat digits) = .ok (value.reread digits) := by
  obtain ⟨datum, read⟩ := Numeral.read_fixedText value.toFloat digits
  rw [Binary64.reread, read]

theorem Decimal.isEmpty_fixedText (x : Float) (places : Nat) :
    (fixedText x places).isEmpty = false := by
  obtain ⟨datum, read⟩ := Numeral.read_fixedText x places
  cases empty : (fixedText x places).isEmpty with
  | false => rfl
  | true =>
      rw [Numeral.read, empty, if_pos rfl] at read
      cases read

/-! ### Series -/

namespace Series

variable {source target : Series Binary64} {digits : Nat}

/-- Puts what a series has under a key into another series, as its text is read. -/
def copy (digits : Nat) (source target : Series Binary64) (key : String) : Series Binary64 :=
  match source.get? key with
  | some value => target.insert key (value.reread digits)
  | none => target

theorem get?_copy (source target : Series Binary64) (key other : String) :
    (copy digits source target key).get? other =
      if other = key then ((source.get? key).map (Binary64.reread digits)).or (target.get? key)
      else target.get? other := by
  unfold copy
  cases source.get? key with
  | none =>
      dsimp only
      rw [Option.map_none, Option.none_or]
      by_cases same : other = key
      · rw [if_pos same, same]
      · rw [if_neg same]
  | some value =>
      dsimp only
      rw [get?_insert, Option.map_some, Option.some_or]

theorem get?_foldl_copy (keys : List String) (target : Series Binary64) (key : String) :
    (keys.foldl (copy digits source) target).get? key =
      if key ∈ keys then ((source.get? key).map (Binary64.reread digits)).or (target.get? key)
      else target.get? key := by
  induction keys generalizing target with
  | nil => exact (if_neg List.not_mem_nil).symm
  | cons first keys ih =>
      rw [List.foldl_cons, ih, get?_copy]
      by_cases same : key = first
      · rw [if_pos same, same, if_pos List.mem_cons_self]
        split
        · rw [← Option.or_assoc, Option.or_self]
        · rfl
      · rw [if_neg same]
        by_cases behind : key ∈ keys
        · rw [if_pos behind, if_pos (List.mem_cons_of_mem first behind)]
        · have absent : key ∉ first :: keys := by
            intro member
            rcases List.mem_cons.mp member with atHead | inKeys
            · exact same atHead
            · exact behind inKeys
          rw [if_neg behind, if_neg absent]

/-- All keys copied, a series is what it was up to the form of its values. -/
theorem foldl_copy_of_hasKeys {keys : List String} (has : source.HasKeys keys) :
    keys.foldl (copy digits source) empty = source.map (Binary64.reread digits) := by
  apply eq_of_get?
  intro key
  have nothing : (empty : Series Binary64).get? key = none := rfl
  rw [get?_foldl_copy, get?_map, nothing, Option.or_none]
  by_cases member : key ∈ keys
  · rw [if_pos member]
  · rw [if_neg member]
    cases found : source.get? key with
    | none => rfl
    | some value =>
        exact absurd ((has key).mp (contains_iff_get?.mpr ⟨value, found⟩)) member

end Series

/-! ### Rows -/

namespace Table

variable {digits : Nat}

/-- The fields of the record of a category. -/
def rowFields (digits : Nat) (row : String × List Binary64) : List (List Char) :=
  row.1.toList :: row.2.map fun value => (Decimal.fixedText value.toFloat digits).toList

/-- What reading a written row does to the columns. -/
def addRow (digits : Nat) (columns : List (Series Binary64)) (row : String × List Binary64) :
    List (Series Binary64) :=
  List.zipWith (fun column value => column.insert row.1 (value.reread digits)) columns row.2

theorem addCell_written (digits : Nat) (path : String) (row : Nat) (key : String)
    (column : Series Binary64) (value : Binary64) :
    addCell path row key column (Decimal.fixedText value.toFloat digits) =
      .ok (column.insert key (value.reread digits)) := by
  unfold addCell
  dsimp only
  rw [Text.trim_of_no_blank (Decimal.no_blank_fixedText _ _), Binary64.read_fixedText,
    Decimal.isEmpty_fixedText, if_neg Bool.false_ne_true]

theorem addCells_written (path : String) (row : Nat) (key : String)
    {columns : List (Series Binary64)} {values : List Binary64}
    (complete : values.length = columns.length) :
    addCells path row key columns
        (values.map fun value => Decimal.fixedText value.toFloat digits) =
      .ok (addRow digits columns (key, values)) := by
  induction columns generalizing values with
  | nil => rfl
  | cons column columns ih =>
      cases values with
      | nil => cases complete
      | cons value values =>
          have others := ih (Nat.succ.inj complete)
          have first := addCell_written digits path row key column value
          rw [addCells, List.map_cons, List.head?_cons, Option.getD_some, List.tail_cons, first,
            others]
          rfl

theorem length_addRow {columns : List (Series Binary64)} {row : String × List Binary64}
    (complete : row.2.length = columns.length) :
    (addRow digits columns row).length = columns.length := by
  rw [addRow, List.length_zipWith, complete, Nat.min_self]

theorem rowFields_eq (digits : Nat) (row : String × List Binary64) :
    rowFields digits row =
      (row.1 :: row.2.map fun value => Decimal.fixedText value.toFloat digits).map
        String.toList := by
  rw [List.map_cons, List.map_map]
  rfl

/-- Written rows are read without a complaint. -/
theorem addRecords_written (path : String) (number : Nat) {records : List Csv.Record}
    {rows : List (String × List Binary64)} {columns : List (Series Binary64)}
    (written : records.map Csv.Record.fields =
      rows.map fun row => (rowFields digits row).map (List.map .char))
    (trimmed : ∀ row ∈ rows, Text.trim row.1 = row.1)
    (complete : ∀ row ∈ rows, row.2.length = columns.length) :
    addRecords path (columns.length + 1) number columns records =
      .ok (rows.foldl (addRow digits) columns) := by
  induction rows generalizing records columns number with
  | nil =>
      cases List.map_eq_nil_iff.mp written
      rfl
  | cons row rows ih =>
      cases records with
      | nil => cases written
      | cons record records =>
          rw [List.map_cons, List.map_cons] at written
          obtain ⟨writtenFirst, writtenRest⟩ := List.cons.inj written
          have length := complete row List.mem_cons_self
          have trimmedKey := trimmed row List.mem_cons_self
          have completeRest : ∀ other ∈ rows,
              other.2.length = (addRow digits columns row).length := by
            intro other member
            rw [length_addRow length]
            exact complete other (List.mem_cons_of_mem row member)
          have rest := ih (number + 1) writtenRest
            (fun other member => trimmed other (List.mem_cons_of_mem row member)) completeRest
          have size : (row.1 :: row.2.map fun value =>
              Decimal.fixedText value.toFloat digits).length = columns.length + 1 := by
            rw [List.length_cons, List.length_map, length]
          rw [length_addRow length, ← size] at rest
          rw [rowFields_eq] at writtenFirst
          rw [← size]
          refine addRecords_cons writtenFirst ?_ rest
          rw [List.head?_cons, Option.getD_some, trimmedKey]
          exact addCells_written path (number + 1) row.1 length

/-! ### Columns -/

/-- A row that lists what series have under its category makes every column copy its series. -/
theorem addRow_listed {named : List (String × Series Binary64)}
    {columns : String × Series Binary64 → Series Binary64} {row : String × List Binary64}
    (listed : row.2.map some = named.map fun series => series.2.get? row.1) :
    addRow digits (named.map columns) row =
      named.map fun series => Series.copy digits series.2 (columns series) row.1 := by
  obtain ⟨key, values⟩ := row
  dsimp only at listed ⊢
  induction named generalizing values with
  | nil =>
      rw [addRow, List.map_nil, List.zipWith_nil_left, List.map_nil]
  | cons first named ih =>
      cases values with
      | nil => cases listed
      | cons value values =>
          rw [List.map_cons, List.map_cons] at listed
          obtain ⟨found, listedRest⟩ := List.cons.inj listed
          have copied : Series.copy digits first.2 (columns first) key =
              (columns first).insert key (value.reread digits) := by
            rw [Series.copy, ← found]
          rw [List.map_cons, List.map_cons, copied, ← ih values listedRest]
          rfl

theorem foldl_addRow {named : List (String × Series Binary64)}
    {rows : List (String × List Binary64)}
    (listed : ∀ row ∈ rows, row.2.map some = named.map fun series => series.2.get? row.1)
    (columns : String × Series Binary64 → Series Binary64) :
    rows.foldl (addRow digits) (named.map columns) =
      named.map fun series =>
        (rows.map Prod.fst).foldl (Series.copy digits series.2) (columns series) := by
  induction rows generalizing columns with
  | nil => rfl
  | cons row rows ih =>
      rw [List.foldl_cons, addRow_listed (listed row List.mem_cons_self)]
      exact ih (fun other member => listed other (List.mem_cons_of_mem row member)) _

/-- Rows that list all that the series have make the columns the series up to the form of their
values. -/
theorem foldl_addRow_of_hasKeys {named : List (String × Series Binary64)}
    {rows : List (String × List Binary64)}
    (listed : ∀ row ∈ rows, row.2.map some = named.map fun series => series.2.get? row.1)
    (has : ∀ series ∈ named, series.2.HasKeys (rows.map Prod.fst)) :
    rows.foldl (addRow digits) (List.replicate named.length .empty) =
      named.map fun series => series.2.map (Binary64.reread digits) := by
  have start : List.replicate named.length Series.empty =
      named.map fun _ => (Series.empty : Series Binary64) := List.map_const'.symm
  rw [start, foldl_addRow listed]
  apply List.map_congr_left
  intro series member
  exact Series.foldl_copy_of_hasKeys (has series member)

end Table

end TikzChart
