import TikzChart.Layout.Scale
import TikzChart.Proofs.Layout.Range
import TikzChart.Proofs.Rounding.WholeNumbers

/-!
Positions on an accepted scale. The check of a scale looks at its factor only. As long as the width
of the range is finite, that is enough for every value of the range to have a finite position; when
the width overflows, the factor is zero and the largest value has none.
-/

set_option autoImplicit false

namespace TikzChart

def largestFloat : ℚ := (2 ^ 53 - 1) * 2 ^ (971 : ℤ)

/-- The largest finite float but one. -/
def largestExtent : ℚ := (2 ^ 53 - 2) * 2 ^ (971 : ℤ)

theorem onGrid_largestFloat : OnGrid largestFloat :=
  ⟨2 ^ 53 - 1, 971, by norm_num, by norm_num, congrArg (· * 2 ^ (971 : ℤ)) (by norm_num)⟩

theorem largestFloat_lt : largestFloat < 2 ^ (1024 : ℤ) := by
  rw [largestFloat, show (1024 : ℤ) = 53 + 971 by rfl, two_zpow_add]
  exact mul_lt_mul_of_pos_right (by norm_num) (two_zpow_pos _)

/-- Rounding the factor adds less to the extent than the step to the next float. -/
theorem width_mul_rounded_le {extent width : ℚ} (positive : 0 < width)
    (widthSmall : width < 2 ^ (1024 : ℤ)) (extentSmall : |extent| ≤ largestExtent) :
    width * |rounded (extent / width)| ≤ largestFloat := by
  have near := abs_rounded_sub_le_add (extent / width)
  have triangle : |rounded (extent / width)| ≤
      |extent / width| + (|extent / width| / 2 ^ 53 + 2 ^ (-1074 : ℤ) / 2) := by
    have parts := abs_add_le (extent / width) (rounded (extent / width) - extent / width)
    rw [add_sub_cancel] at parts
    linarith
  have whole : width * |extent / width| = |extent| := by
    rw [abs_div, abs_of_pos positive, mul_div_cancel₀ _ positive.ne']
  calc
    _ ≤ width * (|extent / width| + (|extent / width| / 2 ^ 53 + 2 ^ (-1074 : ℤ) / 2)) :=
      mul_le_mul_of_nonneg_left triangle positive.le
    _ = |extent| + |extent| / 2 ^ 53 + width * (2 ^ (-1074 : ℤ) / 2) := by
      rw [mul_add, mul_add, ← mul_div_assoc, whole, ← add_assoc]
    _ ≤ largestExtent + largestExtent / 2 ^ 53 + 2 ^ (-50 : ℤ) / 2 := by
      have last := mul_le_mul_of_nonneg_right widthSmall.le (two_zpow_pos (-1074)).le
      rw [← two_zpow_add, show (1024 : ℤ) + -1074 = -50 by rfl] at last
      rw [← mul_div_assoc]
      exact add_le_add
        (add_le_add extentSmall (div_le_div_of_nonneg_right extentSmall (by norm_num)))
        (div_le_div_of_nonneg_right last two_pos.le)
    _ ≤ largestFloat := by
      have large : (2 : ℚ) ^ (1 : ℤ) ≤ 2 ^ (971 : ℤ) := two_zpow_le (by norm_num)
      unfold largestExtent largestFloat
      generalize (2 : ℚ) ^ (971 : ℤ) = place at *
      norm_num at large ⊢
      linarith

variable {low high extent value : Float} {scale : LinearScale Float}

structure Accepted (low high extent : Float) (scale : LinearScale Float) : Prop where
  scale_eq : scale = ⟨low, high, extent / (high - low), Float.ofNat 0⟩
  factorFinite : (extent / (high - low)).isFinite = true

theorem fit_accepted (accepted : LinearScale.fit low high extent = .ok scale) :
    Accepted low high extent scale := by
  unfold LinearScale.fit at accepted
  split at accepted
  · cases accepted
  · dsimp only at accepted
    split at accepted
    · next isFinite =>
        cases accepted
        exact ⟨rfl, isFinite⟩
    · cases accepted

/-- The distance from the smallest value is finite and no larger than the width. -/
theorem Spans.distance_exact (spans : Spans (low, high) value)
    (widthFinite : (high - low).isFinite = true) (valueFinite : value.isFinite = true) :
    (value - low).isFinite = true ∧ |exactValue (value - low)| ≤ exactValue (high - low) := by
  have distance := isRounding_sub valueFinite spans.lowFinite
  have width := isRounding_sub spans.highFinite spans.lowFinite
  have le : rounded (exactValue value - exactValue low) ≤ exactValue (high - low) := by
    rw [width.exactValue_eq widthFinite]
    exact rounded_mono (sub_le_sub_right spans.le_high _)
  have nonneg := rounded_nonneg (sub_nonneg.mpr spans.low_le)
  have size : |rounded (exactValue value - exactValue low)| ≤ exactValue (high - low) := by
    rwa [abs_of_nonneg nonneg]
  have distanceFinite := distance.isFinite_of_lt
    (size.trans_lt ((le_abs_self _).trans_lt (abs_exactValue_lt widthFinite)))
  exact ⟨distanceFinite, by rwa [distance.exactValue_eq distanceFinite]⟩

namespace Accepted

variable (accepted : Accepted low high extent scale)

include accepted

theorem toPlot_eq (value : Float) :
    scale.toPlot value = Float.ofNat 0 + (value - low) * (extent / (high - low)) := by
  rw [accepted.scale_eq]
  rfl

theorem toPlot_isFinite (extentSmall : |exactValue extent| ≤ largestExtent)
    (widthFinite : (high - low).isFinite = true) (valueFinite : value.isFinite = true)
    (spans : Spans (low, high) value) : (scale.toPlot value).isFinite = true := by
  have extentFinite := isFinite_of_div accepted.factorFinite
  have widthNonzero := exactValue_ne_zero_of_div accepted.factorFinite widthFinite
  obtain ⟨distanceFinite, distanceSmall⟩ := spans.distance_exact widthFinite valueFinite
  have widthPositive : 0 < exactValue (high - low) :=
    ((abs_nonneg _).trans distanceSmall).lt_of_ne' widthNonzero
  have factor : exactValue (extent / (high - low)) =
      rounded (exactValue extent / exactValue (high - low)) :=
    (isRounding_div extentFinite widthFinite widthNonzero).exactValue_eq accepted.factorFinite
  have product := isRounding_mul distanceFinite accepted.factorFinite
  have productSmall :
      |exactValue (value - low) * exactValue (extent / (high - low))| ≤ largestFloat := by
    rw [abs_mul, factor]
    exact (mul_le_mul_of_nonneg_right distanceSmall (abs_nonneg _)).trans
      (width_mul_rounded_le widthPositive
        ((le_abs_self _).trans_lt (abs_exactValue_lt widthFinite)) extentSmall)
  rw [accepted.toPlot_eq]
  exact (zero_add_exact
    (product.isFinite_of_le onGrid_largestFloat largestFloat_lt productSmall)).1

theorem width_isFinite (highPlotted : (scale.toPlot high).isFinite = true) :
    (high - low).isFinite = true := by
  rw [accepted.toPlot_eq] at highPlotted
  exact (isFinite_of_mul (isFinite_of_add highPlotted).2).1

end Accepted

/-! ### Positions of a whole tree -/

theorem deriveScale_accepted {tree : NumericTree Float} {base top height fraction : Float}
    (derived : deriveScale tree base top height fraction = .ok scale) :
    ∃ range, tree.range = some range ∧ Accepted (PlotNumber.minimum base range.1)
      (PlotNumber.maximum top range.2) (height * fraction) scale := by
  unfold deriveScale at derived
  split at derived
  · cases derived
  · next low high isRange => exact ⟨(low, high), isRange, fit_accepted derived⟩

/-- The base and the top of a chart only widen the range of its values. -/
theorem Spans.with_base_and_top {range : Float × Float} {base top : Float}
    (spans : Spans range value) (baseFinite : base.isFinite = true)
    (topFinite : top.isFinite = true) :
    Spans (PlotNumber.minimum base range.1, PlotNumber.maximum top range.2) value := by
  obtain ⟨lowFinite, isLow⟩ := PlotNumber.minimum_exact baseFinite spans.lowFinite
  obtain ⟨highFinite, isHigh⟩ := PlotNumber.maximum_exact topFinite spans.highFinite
  exact ⟨lowFinite, highFinite, isLow.trans_le ((min_le_right _ _).trans spans.low_le),
    (spans.le_high.trans (le_max_right _ _)).trans_eq isHigh.symm⟩

theorem leaves_apply_isFinite {tree : NumericTree Float} {base top height fraction : Float}
    (leavesFinite : ∀ leaf ∈ tree.leaves, leaf.isFinite = true) (baseFinite : base.isFinite = true)
    (topFinite : top.isFinite = true)
    (extentSmall : |exactValue (height * fraction)| ≤ largestExtent)
    (derived : deriveScale tree base top height fraction = .ok scale)
    (widthFinite : (scale.high - scale.low).isFinite = true) :
    ∀ position ∈ (scale.apply tree).leaves, position.isFinite = true := by
  obtain ⟨range, isRange, accepted⟩ := deriveScale_accepted derived
  intro position inside
  rw [LinearScale.apply, NumericTree.leaves_map] at inside
  obtain ⟨leaf, isLeaf, rfl⟩ := List.mem_map.mp inside
  have spans := NumericTree.range_spans leavesFinite isRange isLeaf
  rw [accepted.scale_eq] at widthFinite
  exact accepted.toPlot_isFinite extentSmall widthFinite (leavesFinite leaf isLeaf)
    (spans.with_base_and_top baseFinite topFinite)

/-- On an accepted scale every finite value of the range has a finite position if and only if the
width of the range is finite. So has every leaf of a chart whose range has a finite width. The
extent may be any float but the largest. -/
theorem positions_finite_iff_width_finite {extent : Float}
    (extentSmall : |exactValue extent| ≤ largestExtent) :
    (∀ (low high : Float) (scale : LinearScale Float),
      low.isFinite = true → high.isFinite = true → low < high →
      LinearScale.fit low high extent = .ok scale →
      ((∀ value : Float, value.isFinite = true → low ≤ value → value ≤ high →
        (scale.toPlot value).isFinite = true) ↔ (high - low).isFinite = true)) ∧
    ∀ (tree : NumericTree Float) (base top height fraction : Float) (scale : LinearScale Float),
      (∀ leaf ∈ tree.leaves, leaf.isFinite = true) → base.isFinite = true → top.isFinite = true →
      height * fraction = extent → deriveScale tree base top height fraction = .ok scale →
      (scale.high - scale.low).isFinite = true →
      ∀ position ∈ (scale.apply tree).leaves, position.isFinite = true := by
  constructor
  · intro low high scale lowFinite highFinite less fitted
    have accepted := fit_accepted fitted
    constructor
    · intro plotted
      have ordered := ((lt_iff_exactValue_lt lowFinite highFinite).mp less).le
      exact accepted.width_isFinite (plotted high highFinite
        ((le_iff_exactValue_le lowFinite highFinite).mpr ordered)
        ((le_iff_exactValue_le highFinite highFinite).mpr (le_refl _)))
    · intro widthFinite value valueFinite above below
      exact accepted.toPlot_isFinite extentSmall widthFinite valueFinite
        ⟨lowFinite, highFinite, (le_iff_exactValue_le lowFinite valueFinite).mp above,
          (le_iff_exactValue_le valueFinite highFinite).mp below⟩
  · intro tree base top height fraction scale leavesFinite baseFinite topFinite isExtent derived
    subst isExtent
    exact leaves_apply_isFinite leavesFinite baseFinite topFinite extentSmall derived

/-- Values from one to four above a base of zero, over four fifths of a height of a hundred. -/
theorem positions_up_to_four_finite :
    deriveScale (.ofRows [[1, 4], [2]]) 0 3 100 (0.8 : Float) =
        .ok ⟨0, 4, 80 / (4 - 0), Float.ofNat 0⟩ ∧
      (∀ value : Float, value.isFinite = true → 0 ≤ value → value ≤ 4 →
        ((⟨0, 4, 80 / (4 - 0), Float.ofNat 0⟩ : LinearScale Float).toPlot value).isFinite = true) ∧
      ∀ position ∈ ((⟨0, 4, 80 / (4 - 0), Float.ofNat 0⟩ : LinearScale Float).apply
        (.ofRows [[1, 4], [2]])).leaves, position.isFinite = true := by
  have derived : deriveScale (.ofRows [[1, 4], [2]]) 0 3 100 (0.8 : Float) =
      .ok ⟨0, 4, 80 / (4 - 0), Float.ofNat 0⟩ := by decide +kernel
  have small : |exactValue (Float.ofNat 80)| ≤ largestExtent := by
    have place : (1 : ℚ) ≤ 2 ^ (971 : ℤ) := one_le_zpow₀ (by norm_num) (by norm_num)
    rw [(ofNat_exact (by norm_num)).2, largestExtent]
    generalize (2 : ℚ) ^ (971 : ℤ) = unit at place
    norm_num
    linarith
  have extent : (100 : Float) * 0.8 = Float.ofNat 80 := by decide +kernel
  obtain ⟨ranges, charts⟩ := positions_finite_iff_width_finite small
  refine ⟨derived, ?_, ?_⟩
  · exact (ranges 0 4 ⟨0, 4, 80 / (4 - 0), Float.ofNat 0⟩ (by decide +kernel) (by decide +kernel)
      (by decide +kernel) (by decide +kernel)).mpr (by decide +kernel)
  · exact charts _ 0 3 100 0.8 _ (by decide +kernel) (by decide +kernel) (by decide +kernel) extent
      derived (by decide +kernel)

/-- A range whose width overflows is accepted, and its largest value is plotted at a NaN. -/
theorem overflowing_width_accepted :
    ∃ scale : LinearScale Float,
      LinearScale.fit (-1.7e308) 1.7e308 (100 : Float) = .ok scale ∧
      (-1.7e308 : Float).isFinite = true ∧ (1.7e308 : Float).isFinite = true ∧
      (-1.7e308 : Float) < 1.7e308 ∧ (scale.toPlot 1.7e308).isNaN = true :=
  ⟨⟨-1.7e308, 1.7e308, 100 / (1.7e308 - -1.7e308), Float.ofNat 0⟩, by decide +kernel,
    by decide +kernel, by decide +kernel, by decide +kernel, by decide +kernel⟩

/-- Nor does the largest extent leave room for rounding. -/
example :
    (LinearScale.fit 0 (2 - Float.ofBits 0x3CC0000000000000)
        (Float.ofBits 0x7FEFFFFFFFFFFFFF)).toOption.map
      (fun scale => (scale.toPlot (2 - Float.ofBits 0x3CC0000000000000)).isFinite) =
    some false := by decide +kernel

end TikzChart
