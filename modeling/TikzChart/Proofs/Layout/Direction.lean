import TikzChart.Proofs.Layout.Scale
import TikzChart.Proofs.Rounding.Order

/-!
The direction of a scale that leaves room at both ends. As long as the room is no larger than the
width, larger values are placed no further left; beyond that the scale is mirrored. Positions that
overflow keep the order.
-/

set_option autoImplicit false

namespace TikzChart

/-- The values from `low` to `high` over a width, with room at the left and at the right. -/
def paddedScale (low high width padding : Float) : LinearScale Float :=
  ⟨low, high, (width - 2 * padding) / (high - low), padding⟩

variable {low high width padding first second value : Float}

/-! ### Values within a googol -/

theorem exactValue_googol_le : exactValue 1e100 ≤ 2 ^ (333 : ℤ) := by
  have form : Dyadic.ofFloat 1e100 = ⟨false, 0x1249ad2594c37d, 280⟩ := by decide +kernel
  have short : ((0x1249ad2594c37d : ℕ) : ℚ) ≤ 2 ^ (53 : ℤ) := by norm_num
  rw [exactValue, form, Dyadic.value, if_neg Bool.false_ne_true, one_mul,
    show (333 : ℤ) = 53 + 280 by rfl, two_zpow_add]
  exact mul_le_mul_of_nonneg_right short (two_zpow_pos _).le

def WithinGoogol (value : Float) : Prop :=
  value.isFinite = true ∧ -1e100 ≤ value ∧ value ≤ 1e100

instance (value : Float) : Decidable (WithinGoogol value) :=
  inferInstanceAs (Decidable (_ ∧ _ ∧ _))

theorem WithinGoogol.abs_exactValue_le (within : WithinGoogol value) :
    |exactValue value| ≤ 2 ^ (333 : ℤ) := by
  obtain ⟨isFinite, above, below⟩ := within
  have googolFinite : (1e100 : Float).isFinite = true := by decide +kernel
  obtain ⟨negFinite, isNeg⟩ := neg_exact googolFinite
  rw [le_iff_exactValue_le negFinite isFinite, isNeg] at above
  rw [le_iff_exactValue_le isFinite googolFinite] at below
  exact abs_le.mpr ⟨(neg_le_neg exactValue_googol_le).trans above, below.trans exactValue_googol_le⟩

theorem sub_isFinite_of_within (lowWithin : WithinGoogol low) (highWithin : WithinGoogol high) :
    (high - low).isFinite = true := by
  have bound : |exactValue high - exactValue low| ≤ 2 ^ (334 : ℤ) := by
    rw [show (334 : ℤ) = 333 + 1 by rfl, two_zpow_add, zpow_one, mul_two]
    exact (abs_sub _ _).trans
      (add_le_add highWithin.abs_exactValue_le lowWithin.abs_exactValue_le)
  exact (isRounding_sub highWithin.1 lowWithin.1).isFinite_of_le (onGrid_two_zpow (by norm_num))
    (zpow_lt_zpow_right₀ (by norm_num) (by norm_num)) bound

/-! ### Order of positions -/

/-- The offset and the factor of a scale leave the order of two positions to the products. -/
theorem LinearScale.toPlot_le_toPlot (scale : LinearScale Float)
    (offsetFinite : scale.offset.isFinite = true) (factorFinite : scale.factor.isFinite = true)
    (firstFinite : (first - scale.low).isFinite = true)
    (secondFinite : (second - scale.low).isFinite = true)
    (le : exactValue (first - scale.low) * exactValue scale.factor ≤
      exactValue (second - scale.low) * exactValue scale.factor) :
    scale.toPlot first ≤ scale.toPlot second := by
  have firstProduct := roundsTo_mul firstFinite factorFinite
  have secondProduct := roundsTo_mul secondFinite factorFinite
  apply add_le_add_of_isFinite offsetFinite firstProduct.notNaN secondProduct.notNaN
  rw [firstProduct.extendedValue_eq, secondProduct.extendedValue_eq]
  exact clamped_mono le

/-! ### Room at both ends -/

section

variable (factorFinite : (paddedScale low high width padding).factor.isFinite = true)
  (spanFinite : (high - low).isFinite = true)

include factorFinite

theorem room_finite :
    width.isFinite = true ∧ (2 * padding).isFinite = true ∧ padding.isFinite = true := by
  obtain ⟨widthFinite, roomFinite⟩ := isFinite_of_sub (isFinite_of_div factorFinite)
  exact ⟨widthFinite, roomFinite, (isFinite_of_mul roomFinite).2⟩

include spanFinite

theorem factor_exact (spans : Spans (low, high) value) (valueFinite : value.isFinite = true) :
    ∃ span : ℚ, 0 < span ∧ exactValue (paddedScale low high width padding).factor =
      rounded (rounded (exactValue width - exactValue (2 * padding)) / span) := by
  have extentFinite := isFinite_of_div factorFinite
  obtain ⟨widthFinite, roomFinite⟩ := isFinite_of_sub extentFinite
  -- A finite quotient cannot come from a division by zero, so the range has a width.
  have nonzero := exactValue_ne_zero_of_div factorFinite spanFinite
  have nonneg := (abs_nonneg _).trans (spans.distance_exact spanFinite valueFinite).2
  refine ⟨exactValue (high - low), nonneg.lt_of_ne' nonzero, ?_⟩
  rw [← (isRounding_sub widthFinite roomFinite).exactValue_eq extentFinite]
  exact (isRounding_div extentFinite spanFinite nonzero).exactValue_eq factorFinite

theorem factor_nonneg (spans : Spans (low, high) value) (valueFinite : value.isFinite = true)
    (room : 2 * padding ≤ width) :
    0 ≤ exactValue (paddedScale low high width padding).factor := by
  obtain ⟨widthFinite, roomFinite, _⟩ := room_finite factorFinite
  obtain ⟨span, positive, same⟩ := factor_exact factorFinite spanFinite spans valueFinite
  rw [same]
  apply rounded_nonneg
  exact div_nonneg
    (rounded_nonneg (sub_nonneg.mpr ((le_iff_exactValue_le roomFinite widthFinite).mp room)))
    positive.le

theorem factor_nonpos (spans : Spans (low, high) value) (valueFinite : value.isFinite = true)
    (tight : width < 2 * padding) :
    exactValue (paddedScale low high width padding).factor ≤ 0 := by
  obtain ⟨widthFinite, roomFinite, _⟩ := room_finite factorFinite
  obtain ⟨span, positive, same⟩ := factor_exact factorFinite spanFinite spans valueFinite
  have beyond := ((lt_iff_exactValue_lt widthFinite roomFinite).mp tight).le
  rw [same]
  apply rounded_le onGrid_zero
  exact div_nonpos_of_nonpos_of_nonneg (rounded_le onGrid_zero (sub_nonpos.mpr beyond)) positive.le

/-- With enough room larger values are placed no further left, and otherwise no further right. -/
theorem paddedScale_direction (firstSpans : Spans (low, high) first)
    (secondSpans : Spans (low, high) second) (firstFinite : first.isFinite = true)
    (secondFinite : second.isFinite = true) (le : first ≤ second) :
    (2 * padding ≤ width → (paddedScale low high width padding).toPlot first ≤
      (paddedScale low high width padding).toPlot second) ∧
    (width < 2 * padding → (paddedScale low high width padding).toPlot second ≤
      (paddedScale low high width padding).toPlot first) := by
  have offsetFinite := (room_finite factorFinite).2.2
  have firstDistance := (firstSpans.distance_exact spanFinite firstFinite).1
  have secondDistance := (secondSpans.distance_exact spanFinite secondFinite).1
  have nearer : exactValue (first - low) ≤ exactValue (second - low) := by
    rw [(isRounding_sub firstFinite firstSpans.lowFinite).exactValue_eq firstDistance,
      (isRounding_sub secondFinite secondSpans.lowFinite).exactValue_eq secondDistance]
    exact rounded_mono (sub_le_sub_right ((le_iff_exactValue_le firstFinite secondFinite).mp le) _)
  constructor
  · intro room
    refine LinearScale.toPlot_le_toPlot _ offsetFinite factorFinite firstDistance secondDistance ?_
    exact mul_le_mul_of_nonneg_right nearer
      (factor_nonneg factorFinite spanFinite firstSpans firstFinite room)
  · intro tight
    refine LinearScale.toPlot_le_toPlot _ offsetFinite factorFinite secondDistance firstDistance ?_
    exact mul_le_mul_of_nonpos_right nearer
      (factor_nonpos factorFinite spanFinite firstSpans firstFinite tight)

/-- The smallest value is placed at the end of the room at the left. -/
theorem paddedScale_smallest (spans : Spans (low, high) value) (valueFinite : value.isFinite = true)
    (smallest : exactValue value ≤ exactValue low) :
    ((paddedScale low high width padding).toPlot value).isFinite = true ∧
      exactValue ((paddedScale low high width padding).toPlot value) = exactValue padding := by
  have offsetFinite := (room_finite factorFinite).2.2
  have distanceFinite := (spans.distance_exact spanFinite valueFinite).1
  -- Without a distance nothing but the offset is left, and adding zero to it rounds to itself.
  have noDistance : exactValue (value - low) = 0 := by
    rw [(isRounding_sub valueFinite spans.lowFinite).exactValue_eq distanceFinite,
      sub_eq_zero.mpr (smallest.antisymm spans.low_le), rounded_zero]
  have product := isRounding_mul distanceFinite factorFinite
  rw [noDistance, zero_mul] at product
  have productFinite := product.isFinite_of_lt (by rw [rounded_zero, abs_zero]; exact two_zpow_pos _)
  have sum := isRounding_add offsetFinite productFinite
  rw [product.exactValue_eq productFinite, rounded_zero, add_zero] at sum
  have sumFinite := sum.isFinite_of_lt
    (by rw [rounded_exactValue offsetFinite]; exact abs_exactValue_lt offsetFinite)
  exact ⟨sumFinite, (sum.exactValue_eq sumFinite).trans (rounded_exactValue offsetFinite)⟩

/-- That is inside the frame if twice the room is. -/
theorem paddedScale_smallest_inside (spans : Spans (low, high) value)
    (valueFinite : value.isFinite = true) (smallest : exactValue value ≤ exactValue low)
    (nonneg : 0 ≤ padding) (room : 2 * padding ≤ width) :
    0 ≤ (paddedScale low high width padding).toPlot value ∧
      (paddedScale low high width padding).toPlot value ≤ width := by
  obtain ⟨widthFinite, roomFinite, paddingFinite⟩ := room_finite factorFinite
  obtain ⟨zeroFinite, isZero⟩ := ofNat_exact (n := 0) (by norm_num)
  obtain ⟨twoFinite, isTwo⟩ : (2 : Float).isFinite = true ∧ exactValue 2 = (2 : ℕ) :=
    ofNat_exact (by norm_num)
  obtain ⟨placeFinite, place⟩ :=
    paddedScale_smallest factorFinite spanFinite spans valueFinite smallest
  have paddingNonneg := (le_iff_exactValue_le zeroFinite paddingFinite).mp nonneg
  rw [isZero, Nat.cast_zero] at paddingNonneg
  have roomWithin := (le_iff_exactValue_le roomFinite widthFinite).mp room
  have paddingWithin : exactValue padding ≤ exactValue (2 * padding) := by
    rw [(isRounding_mul twoFinite paddingFinite).exactValue_eq roomFinite, isTwo]
    exact le_rounded (onGrid_exactValue paddingFinite)
      (le_mul_of_one_le_left paddingNonneg (by norm_num))
  constructor
  · apply (le_iff_exactValue_le zeroFinite placeFinite).mpr
    rw [place, isZero, Nat.cast_zero]
    exact paddingNonneg
  · apply (le_iff_exactValue_le placeFinite widthFinite).mpr
    rw [place]
    exact paddingWithin.trans roomWithin

end

end TikzChart
