import TikzChart.Data.DataSet
import TikzChart.Decimal.Binary64
import TikzChart.Decimal.Shortest
import TikzChart.Step

/-!
Tables of measured values: a data set, and the categories in the order in which they are
plotted. The categories are the keys that all series share; summary categories may follow them.
A transform is a step that changes a table in place and may fail (`TableStep`); `Table.normalize`
and the others give the table that a transform arrives at.
-/

set_option autoImplicit false

namespace TikzChart

inductive TableError where
  | baselineAbsent (name : String)
  | zeroBaseline (name key : String)
  | seriesAbsent (name : String)
  | notPositive (name : String) (value : Float) (key : String)
  | nothingToSummarize
  | keyTaken (key : String)
  | cannotIgnore (name : String)
  | allIgnored
  | zeroTicStep
  | data (cause : DataError)
deriving DecidableEq, Repr

def TableError.message : TableError → String
  | baselineAbsent name => "baseline series '" ++ name ++ "' not present"
  | zeroBaseline name key => "baseline '" ++ name ++ "' is zero for key '" ++ key ++ "'"
  | seriesAbsent name => "series '" ++ name ++ "' not present"
  | notPositive name value key =>
    "geometric mean needs positive values; '" ++ name ++ "' has " ++ Decimal.plainText value
      ++ " for '" ++ key ++ "'"
  | nothingToSummarize => "no common keys to summarize"
  | keyTaken key => "key '" ++ key ++ "' already present"
  | cannotIgnore name => "cannot ignore '" ++ name ++ "': no such series"
  | allIgnored => "every series is ignored"
  | zeroTicStep => "x tic step must be at least 1"
  | data cause => cause.message

/-- Series with the order of their categories; the last `summaries` categories are appended
means. -/
structure Table where
  keys : List String
  data : DataSet Binary64
  summaries : Nat := 0
deriving DecidableEq

namespace Table

def restricted (data : DataSet Binary64) : Table :=
  let keys := data.commonKeys
  { keys, data := data.mapSeries fun _ series => series.filterKeys keys.contains }

def dataKeys (table : Table) : List String := table.keys.take (table.keys.length - table.summaries)

def summaryKeys (table : Table) : List String :=
  table.keys.drop (table.keys.length - table.summaries)

def names (table : Table) : List String := table.data.names

def rows (table : Table) : Except TableError (List (List Binary64)) :=
  (table.data.aligned table.keys).mapError .data

def divideSeries (baseline : Series Binary64) (keys : List String) (series : Series Binary64) :
    Series Binary64 :=
  keys.foldl (fun result key =>
    match result.get? key, baseline.get? key with
    | some value, some divisor => result.insert key (value.div divisor)
    | _, _ => result) series

/-- The sum from left to right. Only a sum of negative zeros is a negative zero. -/
def sum (values : List Float) : Float := values.foldl (· + ·) (-0.0)

def arithmeticMean (values : List Float) : Float := sum values / Float.ofNat values.length

def geometricMean (values : List Float) : Float :=
  Float.exp (sum (values.map Float.log) / Float.ofNat values.length)

def firstNotPositive? (keys : List String) (series : Series Binary64) : Option (String × Float) :=
  keys.findSome? fun key =>
    match series.get? key with
    | some value => if value.toFloat ≤ 0 then some (key, value.toFloat) else none
    | none => none

def withSummary (table : Table) (key : String) (summary : List Float → Float)
    (columns : List (List Binary64)) : Table :=
  let series := (table.data.series.zip columns).map fun ((name, series), column) =>
    (name, series.insert key (Binary64.ofFloat (summary (column.map Binary64.toFloat))))
  { keys := table.keys ++ [key], data := ⟨series⟩, summaries := table.summaries + 1 }

end Table

abbrev TableStep (α : Type) := Step TableError Table α

namespace TableStep

def normalize (baseline : String) : TableStep Unit := do
  let table ← get
  match table.data.get? baseline with
  | none => throw (.baselineAbsent baseline)
  | some base =>
    match table.keys.find? fun key => (base.get? key).any Binary64.isZero with
    | some key => throw (.zeroBaseline baseline key)
    | none =>
      set { table with data := table.data.mapSeries fun _ => Table.divideSeries base table.keys }

/-- Orders the data categories by the values of a series; equal values keep their order, and the
appended categories stay last. -/
def sortBy (name : String) : TableStep Unit := do
  let table ← get
  match table.data.get? name with
  | none => throw (.seriesAbsent name)
  | some series =>
    let values ← Step.ofExcept ((series.ordered name table.dataKeys).mapError .data)
    let sorted := (values.zip table.dataKeys).mergeSort fun first second =>
      first.1.totalLe second.1
    set { table with keys := sorted.map Prod.snd ++ table.summaryKeys }

def appendSummary (key : String) (summary : List Float → Float) : TableStep Unit := do
  let table ← get
  if table.dataKeys.isEmpty then throw .nothingToSummarize
  if table.keys.contains key then throw (.keyTaken key)
  let columns ← Step.ofExcept ((table.data.aligned table.dataKeys).mapError .data)
  set (table.withSummary key summary columns)

def appendAmean (key : String) : TableStep Unit := appendSummary key Table.arithmeticMean

def appendGmean (key : String) : TableStep Unit := do
  let table ← get
  match table.data.series.findSome? fun (name, series) =>
      (Table.firstNotPositive? table.keys series).map fun found => (name, found) with
  | some (name, found, value) => throw (.notPositive name value found)
  | none => appendSummary key Table.geometricMean

def ignore (name : String) : TableStep Unit := do
  let table ← get
  if (table.data.get? name).isNone then throw (.cannotIgnore name)
  if table.data.size = 1 then throw .allIgnored
  set { table with data := table.data.erase name }

end TableStep

namespace Table

/-! ### Transformed tables -/

def normalize (table : Table) (baseline : String) : Except TableError Table :=
  (TableStep.normalize baseline).resultOn table

def sortBy (table : Table) (name : String) : Except TableError Table :=
  (TableStep.sortBy name).resultOn table

def appendAmean (table : Table) (key : String) : Except TableError Table :=
  (TableStep.appendAmean key).resultOn table

def appendGmean (table : Table) (key : String) : Except TableError Table :=
  (TableStep.appendGmean key).resultOn table

def ignore (table : Table) (name : String) : Except TableError Table :=
  (TableStep.ignore name).resultOn table

end Table

end TikzChart
