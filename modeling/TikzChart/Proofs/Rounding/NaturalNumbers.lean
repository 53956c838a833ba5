import TikzChart.Proofs.Rounding.Order
import TikzChart.Proofs.Rounding.WholeNumbers

/-!
Natural numbers of any size as floats. They are rounded like every other number, so larger ones
never come before smaller ones, and below `2 ^ 53` nothing is lost.
-/

set_option autoImplicit false

namespace TikzChart

open Float.Model Float.Model.UnpackedFloat Unpacked

variable {n : ℕ}

/-- A natural number is read as its multiple by the zeroth power of ten, after its mantissa was
shifted up. -/
theorem ofScientific_rounds (positive : 0 < n) :
    Rounds (UnpackedFloat.ofScientific Format.binary64 n 0) n := by
  have isValue : ((n * 2 ^ 53 : ℕ) : ℚ) * 2 ^ (-53 : ℤ) = n := by
    rw [Nat.cast_mul, mul_assoc]
    norm_num
  have deep : -53 ≤ lastPlace (((n * 2 ^ 53 : ℕ) : ℚ) * 2 ^ (-53 : ℤ)) := by
    have log := log_natCast positive 0
    rw [zpow_zero, mul_one] at log
    rw [isValue, lastPlace, log]
    omega
  have product := roundWithAccuracy_rounds .positive
    (by exact_mod_cast Nat.mul_pos positive (Nat.two_pow_pos 53)) (.exact (n * 2 ^ 53)) deep
  rw [isValue, unit, one_mul] at product
  have inside : ¬(0 : ℤ) < -((2 ^ Format.binary64.exponentBits : ℤ) + n.log2) := by
    rw [show (2 ^ Format.binary64.exponentBits : ℤ) = 2048 by rfl]
    omega
  have shifted : (n <<< Format.binary64.mantissaBits) * 10 ^ (0 : ℤ).toNat = n * 2 ^ 53 := by
    rw [Nat.shiftLeft_eq]
    exact Nat.mul_one _
  unfold UnpackedFloat.ofScientific
  rw [dif_neg positive.ne', if_neg (by decide), if_neg inside, if_pos (le_refl _)]
  unfold UnpackedFloat.mul
  dsimp only
  rw [shifted]
  exact product

theorem clamped_natCast (small : n < 2 ^ 53) : clamped n = n := by
  have onGrid := onGrid_natCast small
  rw [clamped_of_small, onGrid.rounded_eq]
  rw [onGrid.rounded_eq, abs_of_nonneg n.cast_nonneg]
  exact natCast_lt_limit small

theorem roundsTo_ofNat (n : ℕ) : RoundsTo (Float.ofNat n) n := by
  by_cases small : n < 2 ^ 53
  · obtain ⟨isFinite, isExact⟩ := ofNat_exact small
    refine ⟨isNaN_of_isFinite isFinite, ?_⟩
    rw [extendedValue_of_isFinite isFinite, isExact, clamped_natCast small]
  · have reads : Float.ofNat n =
        .ofModel (.pack (UnpackedFloat.ofScientific Format.binary64 n 0)) := by
      change Float.ofScientific n false 0 = _
      unfold Float.ofScientific
      rw [dif_neg fun both => small both.1]
      rfl
    rw [reads]
    exact roundsTo_pack (ofScientific_rounds (by omega))

theorem clamped_natCast_mono {first second : ℕ} (le : first ≤ second) :
    clamped first ≤ clamped second :=
  clamped_mono (Nat.cast_le.mpr le)

theorem one_le_clamped (positive : 0 < n) : 1 ≤ clamped n := by
  have one : clamped (1 : ℕ) = (1 : ℕ) := clamped_natCast (by norm_num)
  have le := clamped_natCast_mono positive
  rw [one, Nat.cast_one] at le
  exact le

end TikzChart
