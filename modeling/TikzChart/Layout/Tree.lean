import TikzChart.Layout.PlotNumber

/-!
Nested values. A `NumericTree` holds one value or a sequence of trees, so that one range covers
several series at once. `range` walks a list of trees still to be visited, the last child of a
sequence first; `leaves` and `map` follow the nesting.
-/

set_option autoImplicit false

namespace TikzChart

inductive NumericTree (α : Type) where
  | scalar (value : α)
  | seq (children : List (NumericTree α))

namespace NumericTree

variable {α β : Type}

def ofValues (values : List α) : NumericTree α := .seq (values.map .scalar)

def ofRows (rows : List (List α)) : NumericTree α := .seq (rows.map ofValues)

mutual

def map (f : α → β) : NumericTree α → NumericTree β
  | .scalar value => .scalar (f value)
  | .seq children => .seq (mapAll f children)

def mapAll (f : α → β) : List (NumericTree α) → List (NumericTree β)
  | [] => []
  | tree :: trees => map f tree :: mapAll f trees

end

mutual

def leaves : NumericTree α → List α
  | .scalar value => [value]
  | .seq children => leavesOfAll children

def leavesOfAll : List (NumericTree α) → List α
  | [] => []
  | tree :: trees => leaves tree ++ leavesOfAll trees

end

mutual

def nodes : NumericTree α → Nat
  | .scalar _ => 1
  | .seq children => nodesOfAll children + 1

def nodesOfAll : List (NumericTree α) → Nat
  | [] => 0
  | tree :: trees => nodes tree + nodesOfAll trees

end

theorem nodesOfAll_append (first second : List (NumericTree α)) :
    nodesOfAll (first ++ second) = nodesOfAll first + nodesOfAll second := by
  induction first with
  | nil => simp [nodesOfAll]
  | cons tree trees ih => simp [nodesOfAll, ih, Nat.add_assoc]

theorem nodesOfAll_reverse (trees : List (NumericTree α)) :
    nodesOfAll trees.reverse = nodesOfAll trees := by
  induction trees with
  | nil => rfl
  | cons tree trees ih => simp [nodesOfAll, nodesOfAll_append, ih, Nat.add_comm]

variable [PlotNumber α]

def widen (found : Option (α × α)) (value : α) : α × α :=
  match found with
  | none => (value, value)
  | some (low, high) => (PlotNumber.minimum low value, PlotNumber.maximum high value)

/-- The range of the values found so far and of the trees still to be visited, the first of which
comes next. -/
def rangeFrom (found : Option (α × α)) : List (NumericTree α) → Option (α × α)
  | [] => found
  | .scalar value :: waiting => rangeFrom (some (widen found value)) waiting
  | .seq children :: waiting => rangeFrom found (children.reverse ++ waiting)
termination_by waiting => nodesOfAll waiting
decreasing_by
  · simp [nodesOfAll, nodes]
  · simp [nodesOfAll, nodes, nodesOfAll_append, nodesOfAll_reverse]

def range (tree : NumericTree α) : Option (α × α) := rangeFrom none [tree]

end NumericTree

end TikzChart
