import TikzChart.Data.Csv
import TikzChart.Data.Table
import TikzChart.Decimal.Fixed

/-!
Tables as comma-separated text: a header with the names of the series, and a record a category
with its values rounded to a number of decimals. There is a limit to the number of decimals.
-/

set_option autoImplicit false

namespace TikzChart

inductive TableTextError where
  | tooManyDecimals (digits : Nat)
  | table (cause : TableError)
deriving DecidableEq, Repr

namespace Table

def maxDecimals : Nat := 65535

def headerText (table : Table) : String :=
  String.ofList (Csv.writeRecord ("key".toList :: table.names.map String.toList))

def recordText (digits : Nat) (key : String) (values : List Binary64) : String :=
  String.ofList (Csv.writeRecord
    (key.toList :: values.map fun value => (Decimal.fixedText value.toFloat digits).toList))

def column (rows : List (List Binary64)) (position : Nat) : List Binary64 :=
  rows.filterMap fun row => row[position]?

def bodyText (table : Table) (digits : Nat) : Except TableTextError String := do
  let rows ← table.rows.mapError .table
  if maxDecimals < digits ∧ ¬rows.isEmpty ∧ ¬table.keys.isEmpty then
    throw (.tooManyDecimals digits)
  pure (String.join (table.keys.mapIdx fun position key =>
    recordText digits key (column rows position)))

def text (table : Table) (digits : Nat) (header : Bool) : Except TableTextError String :=
  (table.bodyText digits).map ((if header then table.headerText else "") ++ ·)

end Table

end TikzChart
