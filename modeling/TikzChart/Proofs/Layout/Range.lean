import TikzChart.Layout.Tree
import TikzChart.Proofs.Rounding.FloatArithmetic

/-!
The range of nested values. The walk with its list of waiting trees is a fold over the leaves, the
last of them first. Among finite floats the fold ends at a finite range that holds all of them.
-/

set_option autoImplicit false

namespace TikzChart

namespace NumericTree

variable {α β : Type}

theorem leavesOfAll_eq (trees : List (NumericTree α)) : leavesOfAll trees = trees.flatMap leaves := by
  induction trees with
  | nil => rfl
  | cons tree trees ih => rw [leavesOfAll, ih, List.flatMap_cons]

mutual

theorem leaves_map (f : α → β) (tree : NumericTree α) : (tree.map f).leaves = tree.leaves.map f := by
  match tree with
  | .scalar value => rfl
  | .seq children => exact leavesOfAll_mapAll f children

theorem leavesOfAll_mapAll (f : α → β) (trees : List (NumericTree α)) :
    leavesOfAll (mapAll f trees) = (leavesOfAll trees).map f := by
  match trees with
  | [] => rfl
  | tree :: trees =>
      rw [mapAll, leavesOfAll, leavesOfAll, leaves_map f tree, leavesOfAll_mapAll f trees,
        List.map_append]

end

section

variable [PlotNumber α]

def widenAll (found : Option (α × α)) (values : List α) : Option (α × α) :=
  values.foldl (fun found value => some (widen found value)) found

theorem rangeFrom_eq_widenAll (found : Option (α × α)) (waiting : List (NumericTree α)) :
    rangeFrom found waiting =
      widenAll found (waiting.flatMap fun tree => tree.leaves.reverse) := by
  induction found, waiting using rangeFrom.induct with
  | case1 found =>
      rw [rangeFrom]
      rfl
  | case2 found value waiting ih =>
      rw [rangeFrom, ih]
      rfl
  | case3 found children waiting ih =>
      rw [List.unattach_reverse, List.unattach_attach] at ih
      rw [rangeFrom, ih, List.flatMap_append, List.flatMap_cons, leaves, leavesOfAll_eq,
        List.reverse_flatMap]
      rfl

theorem range_eq_widenAll (tree : NumericTree α) :
    tree.range = widenAll none tree.leaves.reverse := by
  rw [range, rangeFrom_eq_widenAll, List.flatMap_singleton]

end

end NumericTree

/-! ### Rows and the ends of a range -/

namespace NumericTree

variable {α : Type}

theorem leaves_ofValues (values : List α) : (ofValues values).leaves = values := by
  rw [ofValues, leaves, leavesOfAll_eq, List.flatMap_map]
  exact List.flatMap_singleton' values

theorem leaves_ofRows (rows : List (List α)) : (ofRows rows).leaves = rows.flatten := by
  rw [ofRows, leaves, leavesOfAll_eq, List.flatMap_map, List.flatMap_def]
  simp only [leaves_ofValues, List.map_id']

variable [PlotNumber α]

/-- The range of rows is that of all their values together. -/
theorem range_ofRows (rows : List (List α)) :
    (ofRows rows).range = (ofValues rows.flatten).range := by
  rw [range_eq_widenAll, range_eq_widenAll, leaves_ofRows, leaves_ofValues]

/-- If a value that is added becomes an end or leaves it, the end is one of the values. -/
theorem widenAll_end (pick : α × α → α)
    (widened : ∀ start value,
      pick (widen (some start) value) = pick start ∨ pick (widen (some start) value) = value)
    (single : ∀ value, pick (value, value) = value) {found : Option (α × α)} {values : List α}
    {range : α × α} (result : widenAll found values = some range) :
    pick range ∈ values ∨ ∃ start ∈ found, pick range = pick start := by
  induction values generalizing found with
  | nil => exact .inr ⟨range, result, rfl⟩
  | cons value values ih =>
      have remaining : widenAll (some (widen found value)) values = some range := result
      rcases ih remaining with inValues | ⟨next, isNext, same⟩
      · exact .inl (List.mem_cons_of_mem _ inValues)
      · cases isNext
        rw [same, List.mem_cons]
        cases found with
        | none => exact .inl (.inl (single value))
        | some start =>
            rcases widened start value with kept | taken
            · exact .inr ⟨start, rfl, kept⟩
            · exact .inl (.inl taken)

theorem range_ends {tree : NumericTree α} {range : α × α} (isRange : tree.range = some range) :
    range.1 ∈ tree.leaves ∧ range.2 ∈ tree.leaves := by
  rw [range_eq_widenAll] at isRange
  constructor
  · have low := widenAll_end Prod.fst (fun _ _ => ite_eq_or_eq _ _ _) (fun _ => rfl) isRange
    simpa using low
  · have high := widenAll_end Prod.snd (fun _ _ => ite_eq_or_eq _ _ _) (fun _ => rfl) isRange
    simpa using high

end NumericTree

/-! ### Ranges of finite floats -/

namespace PlotNumber

variable {x y : Float}

theorem minimum_exact (xFinite : x.isFinite = true) (yFinite : y.isFinite = true) :
    (minimum x y).isFinite = true ∧ exactValue (minimum x y) = min (exactValue x) (exactValue y) := by
  have decides : (less x y || isNaN y) = true ↔ exactValue x < exactValue y := by
    change (decide (x < y) || y.isNaN) = true ↔ _
    rw [isNaN_of_isFinite yFinite, Bool.or_false, decide_eq_true_eq,
      lt_iff_exactValue_lt xFinite yFinite]
  unfold minimum
  split
  · next isLess => exact ⟨xFinite, (min_eq_left (decides.mp isLess).le).symm⟩
  · next notLess =>
      exact ⟨yFinite, (min_eq_right (not_lt.mp fun less => notLess (decides.mpr less))).symm⟩

theorem maximum_exact (xFinite : x.isFinite = true) (yFinite : y.isFinite = true) :
    (maximum x y).isFinite = true ∧ exactValue (maximum x y) = max (exactValue x) (exactValue y) := by
  have decides : (less y x || isNaN y) = true ↔ exactValue y < exactValue x := by
    change (decide (y < x) || y.isNaN) = true ↔ _
    rw [isNaN_of_isFinite yFinite, Bool.or_false, decide_eq_true_eq,
      lt_iff_exactValue_lt yFinite xFinite]
  unfold maximum
  split
  · next isLess => exact ⟨xFinite, (max_eq_left (decides.mp isLess).le).symm⟩
  · next notLess =>
      exact ⟨yFinite, (max_eq_right (not_lt.mp fun less => notLess (decides.mpr less))).symm⟩

end PlotNumber

/-- A value in a range between finite floats. -/
structure Spans (range : Float × Float) (value : Float) : Prop where
  lowFinite : range.1.isFinite = true
  highFinite : range.2.isFinite = true
  low_le : exactValue range.1 ≤ exactValue value
  le_high : exactValue value ≤ exactValue range.2

/-- What has been found so far are finite floats. -/
def FoundFinite (found : Option (Float × Float)) : Prop :=
  ∀ range ∈ found, range.1.isFinite = true ∧ range.2.isFinite = true

namespace NumericTree

variable {found : Option (Float × Float)}

theorem widen_spans (foundFinite : FoundFinite found) {value : Float}
    (isFinite : value.isFinite = true) : Spans (widen found value) value := by
  cases found with
  | none => exact ⟨isFinite, isFinite, le_refl _, le_refl _⟩
  | some range =>
      obtain ⟨lowFinite, highFinite⟩ := foundFinite range rfl
      obtain ⟨newLowFinite, newLow⟩ := PlotNumber.minimum_exact lowFinite isFinite
      obtain ⟨newHighFinite, newHigh⟩ := PlotNumber.maximum_exact highFinite isFinite
      exact ⟨newLowFinite, newHighFinite, newLow.trans_le (min_le_right _ _),
        (le_max_right _ _).trans_eq newHigh.symm⟩

theorem spans_widen {range : Float × Float} {earlier value : Float} (spans : Spans range earlier)
    (isFinite : value.isFinite = true) : Spans (widen (some range) value) earlier := by
  obtain ⟨newLowFinite, newLow⟩ := PlotNumber.minimum_exact spans.lowFinite isFinite
  obtain ⟨newHighFinite, newHigh⟩ := PlotNumber.maximum_exact spans.highFinite isFinite
  exact ⟨newLowFinite, newHighFinite, newLow.trans_le ((min_le_left _ _).trans spans.low_le),
    (spans.le_high.trans (le_max_left _ _)).trans_eq newHigh.symm⟩

/-- The range grows from value to value, so what it holds once it holds in the end. -/
theorem widenAll_spans {values : List Float} (allFinite : ∀ value ∈ values, value.isFinite = true)
    (foundFinite : FoundFinite found) {range : Float × Float}
    (result : widenAll found values = some range) :
    (∀ value ∈ values, Spans range value) ∧
      ∀ earlier, (∃ start ∈ found, Spans start earlier) → Spans range earlier := by
  induction values generalizing found with
  | nil =>
      cases (show found = some range from result)
      refine ⟨by simp, ?_⟩
      rintro earlier ⟨start, isStart, spans⟩
      cases isStart
      exact spans
  | cons value values ih =>
      have isFinite := allFinite value (List.mem_cons_self ..)
      have first := widen_spans foundFinite isFinite
      have nextFinite : FoundFinite (some (widen found value)) := by
        intro next isNext
        cases isNext
        exact ⟨first.lowFinite, first.highFinite⟩
      obtain ⟨later, kept⟩ := ih (fun other inside => allFinite other (List.mem_cons_of_mem _ inside))
        nextFinite result
      refine ⟨?_, ?_⟩
      · intro other inside
        rcases List.mem_cons.mp inside with rfl | inside
        · exact kept other ⟨_, rfl, first⟩
        · exact later other inside
      · rintro earlier ⟨start, isStart, spans⟩
        cases isStart
        exact kept earlier ⟨_, rfl, spans_widen spans isFinite⟩

theorem range_spans {tree : NumericTree Float}
    (leavesFinite : ∀ leaf ∈ tree.leaves, leaf.isFinite = true) {range : Float × Float}
    (isRange : tree.range = some range) {leaf : Float} (isLeaf : leaf ∈ tree.leaves) :
    Spans range leaf := by
  rw [range_eq_widenAll] at isRange
  refine (widenAll_spans ?_ ?_ isRange).1 leaf (List.mem_reverse.mpr isLeaf)
  · exact fun value inside => leavesFinite value (List.mem_reverse.mp inside)
  · exact fun range none => nomatch none

end NumericTree

/-- The range of values that stand in no nesting. A NaN among them does not count. -/
structure RangeOf (values : List Float) (low high : Float) : Prop where
  computed : (NumericTree.ofValues values).range = some (low, high)
  low_mem : low ∈ values
  high_mem : high ∈ values
  encloses : (∀ value ∈ values, value.isFinite = true) →
    ∀ value ∈ values, low ≤ value ∧ value ≤ high

theorem spans_of_range {values : List Float} {low high : Float}
    (computed : (NumericTree.ofValues values).range = some (low, high))
    (allFinite : ∀ value ∈ values, value.isFinite = true) {value : Float} (member : value ∈ values) :
    Spans (low, high) value :=
  NumericTree.range_spans (by rwa [NumericTree.leaves_ofValues]) computed
    (by rwa [NumericTree.leaves_ofValues])

theorem rangeOf_of_range {values : List Float} {low high : Float}
    (computed : (NumericTree.ofValues values).range = some (low, high)) :
    RangeOf values low high := by
  have ends := NumericTree.range_ends computed
  rw [NumericTree.leaves_ofValues] at ends
  refine ⟨computed, ends.1, ends.2, ?_⟩
  intro allFinite value member
  have spans := spans_of_range computed allFinite member
  have valueFinite := allFinite value member
  exact ⟨(le_iff_exactValue_le spans.lowFinite valueFinite).mpr spans.low_le,
    (le_iff_exactValue_le valueFinite spans.highFinite).mpr spans.le_high⟩

end TikzChart
