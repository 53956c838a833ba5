import TikzChart.Data.Table
import TikzChart.Decimal.Numeral
import TikzChart.Text.Blank

/-!
Tables as lines. When every data category is a number, the categories are the horizontal
positions and the points are ordered by them; appended means have no position and are left out.
Otherwise every category, means included, stands at its index.
-/

set_option autoImplicit false

namespace TikzChart

structure LinePoints where
  tics : List Binary64
  lines : List (List (Binary64 × Binary64))
deriving DecidableEq, Repr

namespace LinePoints

/-- The categories as numbers, if all of them are; blanks around them do not count. -/
def numbers? : List String → Option (List Binary64)
  | [] => some []
  | key :: keys =>
    match Numeral.read (Text.trim key) with
    | .error _ => none
    | .ok datum => (numbers? keys).map (datum :: ·)

def dropRepeats : List Binary64 → List Binary64
  | [] => []
  | [value] => [value]
  | value :: next :: rest =>
    if value.toFloat == next.toFloat then
      -- the first of equal values stays, and is compared with what follows
      dropRepeats (value :: rest)
    else value :: dropRepeats (next :: rest)
termination_by values => values.length

def ofIndex (index : Nat) : Binary64 := Binary64.ofFloat (Float.ofNat index)

def ordered (positions values : List Binary64) : List (Binary64 × Binary64) :=
  (positions.zip values).mergeSort fun first second => first.1.totalLe second.1

def along (table : Table) (keys : List String) (positions tics : List Binary64) :
    Except TableError LinePoints := do
  let rows ← (table.data.aligned keys).mapError .data
  pure ⟨dropRepeats tics, rows.map (ordered positions)⟩

/-- The lines of a table; `step` is the distance of the tics when categories stand at their
indices. -/
def ofTable (table : Table) (step : Nat) : Except TableError LinePoints :=
  match numbers? table.dataKeys with
  | some (first :: rest) =>
    let positions := first :: rest
    along table table.dataKeys positions (positions.mergeSort Binary64.totalLe)
  | _ =>
    if step = 0 then .error .zeroTicStep
    else
      let indices := List.range table.keys.length
      along table table.keys (indices.map ofIndex) ((indices.filter (· % step == 0)).map ofIndex)

end LinePoints

end TikzChart
