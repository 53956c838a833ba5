import TikzChart.ChartError
import TikzChart.Data.Series

/-!
Data sets: series under names, in the order in which they were inserted. A name is taken once.
`aligned` lists the values of all series by a list of keys, and fails rather than shift a value
to a key that is not its own.
-/

set_option autoImplicit false

namespace TikzChart

/-- The values of a series in the order of `keys`; the first key without a value is reported
under the given name. -/
def Series.ordered {α : Type} (series : Series α) (name : String) :
    List String → Except DataError (List α)
  | [] => .ok []
  | key :: keys =>
    match series.get? key with
    | none => .error (.missingValue name key)
    | some value => (series.ordered name keys).map (value :: ·)

structure DataSet (α : Type) where
  series : List (String × Series α)
deriving DecidableEq

namespace DataSet

variable {α : Type}

def empty : DataSet α := ⟨[]⟩

def get? (data : DataSet α) (name : String) : Option (Series α) := data.series.lookup name

def insert (data : DataSet α) (name : String) (series : Series α) :
    Except DataError (DataSet α) :=
  if (data.get? name).isSome then .error (.duplicateSeries name)
  else .ok ⟨data.series ++ [(name, series)]⟩

def insertAll (data : DataSet α) : List (String × Series α) → Except DataError (DataSet α)
  | [] => .ok data
  | (name, series) :: rest => do (← data.insert name series).insertAll rest

def modify (data : DataSet α) (name : String) (change : Series α → Series α) : DataSet α :=
  ⟨data.series.map fun named => if named.1 = name then (named.1, change named.2) else named⟩

def mapSeries {β : Type} (data : DataSet α) (change : String → Series α → Series β) :
    DataSet β :=
  ⟨data.series.map fun named => (named.1, change named.1 named.2)⟩

def erase (data : DataSet α) (name : String) : DataSet α :=
  ⟨data.series.eraseP (·.1 == name)⟩

def names (data : DataSet α) : List String := data.series.map Prod.fst

def size (data : DataSet α) : Nat := data.series.length

def isEmpty (data : DataSet α) : Bool := data.series.isEmpty

/-- The keys that every series has, in ascending order; none if there is no series. -/
def commonKeys (data : DataSet α) : List String :=
  match data.series with
  | [] => []
  | (_, first) :: rest => first.keys.filter fun key => rest.all fun named => named.2.contains key

def aligned (data : DataSet α) (keys : List String) : Except DataError (List (List α)) :=
  data.series.mapM fun named => named.2.ordered named.1 keys

end DataSet

end TikzChart
