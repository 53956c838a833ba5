import Mathlib.Order.Bounds.Basic
import TikzChart.Layout.Tic
import TikzChart.Proofs.Layout.Walk
import TikzChart.Proofs.Outcome

/-!
The vertical scale with the formulas read over the rationals. One range of values is stretched over
the data region: from the smallest of the base and the leaves to the largest of the top and the
leaves. Leaves, ends and tics are placed by the same map, which keeps the order (`FillsRegion`). The
tics are computed without the smallest value and without the offset, and still stand where the map
puts them.
-/

set_option autoImplicit false

namespace TikzChart

/-! ### Exact ranges -/

namespace PlotNumber

theorem minimum_rat (x y : ℚ) : minimum x y = min x y := by
  have decides : (less x y || isNaN y) = true ↔ x < y := by
    change (decide (x < y) || false) = true ↔ _
    rw [Bool.or_false, decide_eq_true_eq]
  unfold minimum
  split
  · next isLess => exact (min_eq_left (decides.mp isLess).le).symm
  · next notLess => exact (min_eq_right (not_lt.mp fun less => notLess (decides.mpr less))).symm

theorem maximum_rat (x y : ℚ) : maximum x y = max x y := by
  have decides : (less y x || isNaN y) = true ↔ y < x := by
    change (decide (y < x) || false) = true ↔ _
    rw [Bool.or_false, decide_eq_true_eq]
  unfold maximum
  split
  · next isLess => exact (max_eq_left (decides.mp isLess).le).symm
  · next notLess => exact (max_eq_right (not_lt.mp fun less => notLess (decides.mpr less))).symm

end PlotNumber

namespace NumericTree

theorem widen_rat (range : ℚ × ℚ) (value : ℚ) :
    widen (some range) value = (min range.1 value, max range.2 value) :=
  Prod.ext (PlotNumber.minimum_rat _ _) (PlotNumber.maximum_rat _ _)

/-- Widening never gives up a value again. -/
theorem widenAll_rat {start range : ℚ × ℚ} {values : List ℚ}
    (result : widenAll (some start) values = some range) :
    (range.1 ≤ start.1 ∧ start.2 ≤ range.2) ∧
      ∀ value ∈ values, range.1 ≤ value ∧ value ≤ range.2 := by
  induction values generalizing start with
  | nil =>
      cases result
      exact ⟨⟨le_refl _, le_refl _⟩, by simp⟩
  | cons value values ih =>
      change widenAll (some (widen (some start) value)) values = some range at result
      rw [widen_rat] at result
      obtain ⟨⟨below, above⟩, rest⟩ := ih result
      refine ⟨⟨below.trans (min_le_left _ _), (le_max_left _ _).trans above⟩, ?_⟩
      intro other member
      rcases List.mem_cons.mp member with rfl | inRest
      · exact ⟨below.trans (min_le_right _ _), (le_max_right _ _).trans above⟩
      · exact rest other inRest

theorem range_rat {tree : NumericTree ℚ} {low high : ℚ} (isRange : tree.range = some (low, high)) :
    ∀ leaf ∈ tree.leaves, low ≤ leaf ∧ leaf ≤ high := by
  rw [range_eq_widenAll] at isRange
  cases reversed : tree.leaves.reverse with
  | nil =>
      rw [reversed] at isRange
      cases isRange
  | cons last others =>
      rw [reversed] at isRange
      have result : widenAll (some (last, last)) others = some (low, high) := isRange
      obtain ⟨ofLast, ofOthers⟩ := widenAll_rat result
      intro leaf member
      rw [← List.mem_reverse, reversed] at member
      rcases List.mem_cons.mp member with rfl | inOthers
      · exact ofLast
      · exact ofOthers leaf inOthers

theorem exists_range {tree : NumericTree ℚ} (someLeaves : tree.leaves ≠ []) :
    ∃ low high, tree.range = some (low, high) ∧ low ∈ tree.leaves ∧ high ∈ tree.leaves := by
  cases isRange : tree.range with
  | none => exact absurd (range_eq_none_iff.mp isRange) someLeaves
  | some range => exact ⟨range.1, range.2, rfl, range_ends isRange⟩

end NumericTree

/-! ### The stretched range -/

/-- The values of a chart fill an extent: the smallest stands at its start, the largest at its end,
everything else in order between or beyond. -/
structure FillsRegion (scale : LinearScale ℚ) (leaves : List ℚ) (extent : ℚ) : Prop where
  low_lt_high : scale.low < scale.high
  inside : ∀ leaf ∈ leaves, 0 ≤ scale.toPlot leaf ∧ scale.toPlot leaf ≤ extent
  at_low : scale.toPlot scale.low = 0
  at_high : scale.toPlot scale.high = extent
  monotone : ∀ first second, first ≤ second → scale.toPlot first ≤ scale.toPlot second

/-- The scale that stretches a range over an extent. -/
def stretched (low high extent : ℚ) : LinearScale ℚ := ⟨low, high, extent / (high - low), 0⟩

theorem fit_rat (low high extent : ℚ) :
    LinearScale.fit low high extent =
      if high = low then .error (.degenerateRange low high)
      else .ok (stretched low high extent) := by
  have decides : PlotNumber.equal high low = true ↔ high = low := decide_eq_true_iff
  unfold LinearScale.fit
  exact if_congr decides rfl rfl

theorem toPlot_stretched (low high extent value : ℚ) :
    (stretched low high extent).toPlot value = (value - low) * (extent / (high - low)) :=
  zero_add _

section

variable {low high extent : ℚ}

theorem stretched_fills (less : low < high) (room : 0 ≤ extent) {leaves : List ℚ}
    (enclosed : ∀ leaf ∈ leaves, low ≤ leaf ∧ leaf ≤ high) :
    FillsRegion (stretched low high extent) leaves extent := by
  have width : 0 < high - low := sub_pos.mpr less
  have atLow : (stretched low high extent).toPlot low = 0 := by
    rw [toPlot_stretched, sub_self, zero_mul]
  have atHigh : (stretched low high extent).toPlot high = extent := by
    rw [toPlot_stretched, mul_div_cancel₀ _ width.ne']
  have monotone : ∀ first second, first ≤ second →
      (stretched low high extent).toPlot first ≤ (stretched low high extent).toPlot second := by
    intro first second le
    rw [toPlot_stretched, toPlot_stretched]
    exact mul_le_mul_of_nonneg_right (sub_le_sub_right le low) (div_nonneg room width.le)
  refine ⟨less, ?_, atLow, atHigh, monotone⟩
  intro leaf member
  obtain ⟨above, below⟩ := enclosed leaf member
  exact ⟨atLow.symm.trans_le (monotone low leaf above), (monotone leaf high below).trans_eq atHigh⟩

end

/-! ### Tics -/

theorem position_ticAt {scale : LinearScale ℚ} (atStart : scale.offset = 0) (step : ℚ) (index : ℕ) :
    (ticAt scale step index).position = scale.toPlot (ticAt scale step index).value := by
  change (index * step - 0) * scale.factor =
    scale.offset + (scale.low + index * step - scale.low) * scale.factor
  rw [atStart, zero_add, sub_zero, add_sub_cancel_left]

theorem position_yTics {scale : LinearScale ℚ} (atStart : scale.offset = 0)
    {settings : TicSettings ℚ} {height fraction : ℚ} {tics : List (TicMark ℚ)}
    (resolved : yTics scale settings height fraction = .ok tics) :
    ∀ tic ∈ tics, tic.position = scale.toPlot tic.value := by
  unfold yTics at resolved
  obtain ⟨⟨step, count⟩, _, marked⟩ := Outcome.bind_eq_ok_iff.mp resolved
  dsimp only at marked
  intro tic member
  split at marked
  · cases marked
    cases member
  · cases marked
    obtain ⟨index, _, rfl⟩ := List.mem_map.mp member
    exact position_ticAt atStart step index

/-! ### The scale of a chart -/

/-- The base and the top take part in the range as if they were leaves. -/
theorem deriveScale_rat {tree : NumericTree ℚ} (someLeaves : tree.leaves ≠ [])
    (base top height fraction : ℚ) :
    ∃ low high, IsLeast {value | value ∈ base :: tree.leaves} low ∧
      IsGreatest {value | value ∈ top :: tree.leaves} high ∧
      deriveScale tree base top height fraction =
        if high = low then .error (.degenerateRange low high)
        else .ok (stretched low high (height * fraction)) := by
  obtain ⟨lowest, highest, isRange, lowLeaf, highLeaf⟩ := NumericTree.exists_range someLeaves
  have enclosed := NumericTree.range_rat isRange
  have derived : deriveScale tree base top height fraction =
      LinearScale.fit (PlotNumber.minimum base lowest) (PlotNumber.maximum top highest)
        (height * fraction) := by
    unfold deriveScale
    rw [isRange]
  rw [PlotNumber.minimum_rat, PlotNumber.maximum_rat, fit_rat] at derived
  refine ⟨min base lowest, max top highest, ⟨?_, ?_⟩, ⟨?_, ?_⟩, derived⟩
  · rcases min_choice base lowest with same | same
    · rw [same]
      exact List.mem_cons_self
    · rw [same]
      exact List.mem_cons_of_mem _ lowLeaf
  · intro value member
    rcases List.mem_cons.mp member with rfl | isLeaf
    · exact min_le_left _ _
    · exact (min_le_right _ _).trans (enclosed value isLeaf).1
  · rcases max_choice top highest with same | same
    · rw [same]
      exact List.mem_cons_self
    · rw [same]
      exact List.mem_cons_of_mem _ highLeaf
  · intro value member
    rcases List.mem_cons.mp member with rfl | isLeaf
    · exact le_max_left _ _
    · exact (enclosed value isLeaf).2.trans (le_max_right _ _)

/-- The scale of a chart is refused exactly when the smallest of the base and the leaves is the
largest of the top and the leaves. Otherwise it starts at the one and ends at the other, its values
fill the data region in order, and every tic stands where its value is plotted. -/
theorem exact_scale_fills_data_region (tree : NumericTree ℚ) (base top height fraction : ℚ)
    (someLeaves : tree.leaves ≠ []) (room : 0 ≤ height * fraction) :
    ∃ low high, IsLeast {value | value ∈ base :: tree.leaves} low ∧
      IsGreatest {value | value ∈ top :: tree.leaves} high ∧
      (deriveScale tree base top height fraction = .error (.degenerateRange low high) ↔
        low = high) ∧
      (low ≠ high → ∃ scale, deriveScale tree base top height fraction = .ok scale ∧
        scale.low = low ∧ scale.high = high ∧
        FillsRegion scale tree.leaves (height * fraction) ∧
        ∀ settings ticHeight ticFraction tics,
          yTics scale settings ticHeight ticFraction = .ok tics →
          ∀ tic ∈ tics, tic.position = scale.toPlot tic.value) := by
  obtain ⟨low, high, least, greatest, derived⟩ :=
    deriveScale_rat someLeaves base top height fraction
  have enclosed : ∀ leaf ∈ tree.leaves, low ≤ leaf ∧ leaf ≤ high := fun leaf isLeaf =>
    ⟨least.2 (List.mem_cons_of_mem _ isLeaf), greatest.2 (List.mem_cons_of_mem _ isLeaf)⟩
  refine ⟨low, high, least, greatest, ?_, ?_⟩
  · rw [derived]
    by_cases same : high = low
    · exact iff_of_true (if_pos same) same.symm
    · rw [if_neg same]
      exact iff_of_false nofun (Ne.symm same)
  · intro differ
    obtain ⟨leaf, isLeaf⟩ := List.exists_mem_of_ne_nil _ someLeaves
    have less : low < high :=
      ((enclosed leaf isLeaf).1.trans (enclosed leaf isLeaf).2).lt_of_ne differ
    rw [if_neg differ.symm] at derived
    refine ⟨_, derived, rfl, rfl, stretched_fills less room enclosed, ?_⟩
    intro settings ticHeight ticFraction tics resolved
    exact position_yTics rfl resolved

/-- Values from one to four above a base of zero, over four fifths of a height of a hundred. -/
theorem values_up_to_four_fill_region :
    (NumericTree.ofRows [[1, 4], [2]] : NumericTree ℚ).leaves ≠ [] ∧ (0 : ℚ) ≤ 100 * (4 / 5) ∧
      ∃ low high : ℚ, ∃ scale, low ≠ high ∧
        deriveScale (.ofRows [[1, 4], [2]]) 0 3 100 (4 / 5) = .ok scale ∧
        scale.low = low ∧ scale.high = high ∧ FillsRegion scale [1, 4, 2] 80 := by
  have leaves : (NumericTree.ofRows [[1, 4], [2]] : NumericTree ℚ).leaves = [1, 4, 2] :=
    NumericTree.leaves_ofRows _
  have someLeaves : (NumericTree.ofRows [[1, 4], [2]] : NumericTree ℚ).leaves ≠ [] := by
    rw [leaves]
    exact List.cons_ne_nil _ _
  have room : (0 : ℚ) ≤ 100 * (4 / 5) := by norm_num
  obtain ⟨low, high, least, greatest, -, derived⟩ :=
    exact_scale_fills_data_region _ 0 3 100 (4 / 5) someLeaves room
  rw [leaves] at least greatest derived
  have isLow : low ≤ 0 := least.2 List.mem_cons_self
  have isHigh : 4 ≤ high := greatest.2 (by simp)
  have differ : low ≠ high := by linarith
  obtain ⟨scale, isScale, lowEq, highEq, fills, -⟩ := derived differ
  refine ⟨someLeaves, room, low, high, scale, differ, isScale, lowEq, highEq, ?_⟩
  rwa [show (100 : ℚ) * (4 / 5) = 80 by norm_num] at fills

end TikzChart
