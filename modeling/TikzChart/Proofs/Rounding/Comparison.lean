import TikzChart.Proofs.Rounding.Unpacked

/-!
Floats taken apart are compared by sign, exponent and mantissa in turn. For canonical finite numbers
that is the order of their values.
-/

set_option autoImplicit false

namespace TikzChart.Unpacked

open Float.Model Float.Model.UnpackedFloat

section

variable {firstMantissa secondMantissa : ℕ} {firstExponent secondExponent : ℤ}

/-- Mantissas matter only under equal exponents, because the larger number has all its places. -/
theorem HasPlaces.lt_of_exponent_lt (firstPlaces : HasPlaces firstMantissa firstExponent)
    (secondPlaces : HasPlaces secondMantissa secondExponent)
    (less : firstExponent < secondExponent) :
    (firstMantissa : ℚ) * 2 ^ firstExponent < secondMantissa * 2 ^ secondExponent := by
  have inside := firstPlaces.inside
  have full : 2 ^ 52 ≤ secondMantissa := secondPlaces.full.resolve_right (by omega)
  have short : (firstMantissa : ℚ) < 2 ^ (53 : ℤ) := by exact_mod_cast firstPlaces.short
  have large : (2 : ℚ) ^ (52 : ℤ) ≤ secondMantissa := by exact_mod_cast full
  calc
    _ < (2 : ℚ) ^ (53 : ℤ) * 2 ^ firstExponent := mul_lt_mul_of_pos_right short (two_zpow_pos _)
    _ = 2 ^ (53 + firstExponent) := (two_zpow_add _ _).symm
    _ ≤ 2 ^ (52 + secondExponent) := two_zpow_le (by omega)
    _ = 2 ^ (52 : ℤ) * 2 ^ secondExponent := two_zpow_add _ _
    _ ≤ _ := mul_le_mul_of_nonneg_right large (two_zpow_pos _).le

theorem compare_places (firstPlaces : HasPlaces firstMantissa firstExponent)
    (secondPlaces : HasPlaces secondMantissa secondExponent) :
    (compare firstExponent secondExponent).then (compare firstMantissa secondMantissa) =
      compare ((firstMantissa : ℚ) * 2 ^ firstExponent) (secondMantissa * 2 ^ secondExponent) := by
  rcases lt_trichotomy firstExponent secondExponent with less | rfl | greater
  · rw [compare_lt_iff_lt.mpr less,
      compare_lt_iff_lt.mpr (firstPlaces.lt_of_exponent_lt secondPlaces less)]
    rfl
  · have positive := two_zpow_pos firstExponent
    rw [compare_eq_iff_eq.mpr rfl]
    change compare firstMantissa secondMantissa = _
    rcases lt_trichotomy firstMantissa secondMantissa with less | rfl | greater
    · rw [compare_lt_iff_lt.mpr less, compare_lt_iff_lt.mpr]
      exact mul_lt_mul_of_pos_right (by exact_mod_cast less) positive
    · rw [compare_eq_iff_eq.mpr rfl, compare_eq_iff_eq.mpr rfl]
    · rw [compare_gt_iff_gt.mpr greater, compare_gt_iff_gt.mpr]
      exact mul_lt_mul_of_pos_right (by exact_mod_cast greater) positive
  · rw [compare_gt_iff_gt.mpr greater,
      compare_gt_iff_gt.mpr (secondPlaces.lt_of_exponent_lt firstPlaces greater)]
    rfl

end

theorem compare_neg_neg (x y : ℚ) : compare (-x) (-y) = (compare x y).swap := by
  rcases lt_trichotomy x y with less | rfl | greater
  · rw [compare_lt_iff_lt.mpr less, compare_gt_iff_gt.mpr (neg_lt_neg less)]
    rfl
  · rw [compare_eq_iff_eq.mpr rfl, compare_eq_iff_eq.mpr rfl]
    rfl
  · rw [compare_gt_iff_gt.mpr greater, compare_lt_iff_lt.mpr (neg_lt_neg greater)]
    rfl

theorem value_negative (mantissa : ℕ) (exponent : ℤ) (positive : 0 < mantissa) :
    value (.finite .negative mantissa exponent positive) = -(mantissa * 2 ^ exponent) := by
  rw [value_finite, unit, neg_one_mul]

theorem value_positive (mantissa : ℕ) (exponent : ℤ) (positive : 0 < mantissa) :
    value (.finite .positive mantissa exponent positive) = mantissa * 2 ^ exponent := by
  rw [value_finite, unit, one_mul]

variable {first second : UnpackedFloat}

theorem compare_eq (firstFinite : first.isFinite = true) (secondFinite : second.isFinite = true)
    (firstCanonical : IsCanonical first) (secondCanonical : IsCanonical second) :
    UnpackedFloat.compare first second = some (compare (value first) (value second)) := by
  rcases finite_cases firstFinite with
    ⟨firstSign, rfl⟩ | ⟨firstSign, firstMantissa, firstExponent, firstPositive, rfl⟩ <;>
  rcases finite_cases secondFinite with
    ⟨secondSign, rfl⟩ | ⟨secondSign, secondMantissa, secondExponent, secondPositive, rfl⟩
  · rw [value_zero, value_zero, compare_eq_iff_eq.mpr rfl]
    rfl
  · have magnitude := magnitude_pos secondPositive secondExponent
    cases secondSign with
    | negative =>
        rw [value_zero, value_negative, compare_gt_iff_gt.mpr (neg_neg_of_pos magnitude)]
        rfl
    | positive =>
        rw [value_zero, value_positive, compare_lt_iff_lt.mpr magnitude]
        rfl
  · have magnitude := magnitude_pos firstPositive firstExponent
    cases firstSign with
    | negative =>
        rw [value_zero, value_negative, compare_lt_iff_lt.mpr (neg_neg_of_pos magnitude)]
        rfl
    | positive =>
        rw [value_zero, value_positive, compare_gt_iff_gt.mpr magnitude]
        rfl
  · have firstMagnitude := magnitude_pos firstPositive firstExponent
    have secondMagnitude := magnitude_pos secondPositive secondExponent
    have places := compare_places firstCanonical secondCanonical
    cases firstSign <;> cases secondSign
    · rw [value_negative, value_negative, compare_neg_neg, ← places]
      rfl
    · rw [value_negative, value_positive,
        compare_lt_iff_lt.mpr ((neg_neg_of_pos firstMagnitude).trans secondMagnitude)]
      rfl
    · rw [value_negative, value_positive,
        compare_gt_iff_gt.mpr ((neg_neg_of_pos secondMagnitude).trans firstMagnitude)]
      rfl
    · rw [value_positive, value_positive, ← places]
      rfl

end TikzChart.Unpacked
