import Mathlib
import TikzChart.Proofs.Rounding.Mantissa

/-!
Floats taken apart into sign, mantissa and exponent. Whatever is known of the exact number, it is
rounded (`Rounds`) to the one form that has 53 places or the last place of all.
-/

set_option autoImplicit false

namespace TikzChart

open Float.Model Float.Model.UnpackedFloat

/-! ### Values -/

namespace Unpacked

def unit : Sign → ℚ
  | .negative => -1
  | .positive => 1

/-- The exact value of a finite number; nothing else has one. -/
def value : UnpackedFloat → ℚ
  | .finite sign mantissa exponent _ => unit sign * (mantissa * 2 ^ exponent)
  | _ => 0

/-- The mantissa has 53 places, or fewer above the last place of all. -/
structure HasPlaces (mantissa : ℕ) (exponent : ℤ) : Prop where
  short : mantissa < 2 ^ 53
  inside : -1074 ≤ exponent
  full : 2 ^ 52 ≤ mantissa ∨ exponent = -1074

/-- A number in the form that floats are kept in. -/
def IsCanonical : UnpackedFloat → Prop
  | .finite _ mantissa exponent _ => HasPlaces mantissa exponent
  | _ => True

/-- The canonical form of a number that has been rounded. -/
structure Rounds (unpacked : UnpackedFloat) (x : ℚ) : Prop where
  isFinite : unpacked.isFinite = true
  canonical : IsCanonical unpacked
  value_eq : value unpacked = rounded x

theorem abs_unit (sign : Sign) : |unit sign| = 1 := by
  cases sign <;> simp [unit]

theorem magnitude_pos {mantissa : ℕ} (positive : 0 < mantissa) (exponent : ℤ) :
    (0 : ℚ) < mantissa * 2 ^ exponent :=
  mul_pos (by exact_mod_cast positive) (two_zpow_pos _)

theorem unit_mul (first second : Sign) : unit (first * second) = unit first * unit second := by
  cases first <;> cases second
  · exact (by norm_num : (1 : ℚ) = -1 * -1)
  · exact (by norm_num : (-1 : ℚ) = -1 * 1)
  · exact (by norm_num : (-1 : ℚ) = 1 * -1)
  · exact (by norm_num : (1 : ℚ) = 1 * 1)

theorem unit_div (first second : Sign) : unit (first / second) = unit first / unit second := by
  cases first <;> cases second
  · exact (by norm_num : (1 : ℚ) = -1 / -1)
  · exact (by norm_num : (-1 : ℚ) = -1 / 1)
  · exact (by norm_num : (-1 : ℚ) = 1 / -1)
  · exact (by norm_num : (1 : ℚ) = 1 / 1)

theorem unit_neg (sign : Sign) : unit (-sign) = -unit sign := by
  cases sign with
  | negative => exact (neg_neg (1 : ℚ)).symm
  | positive => rfl

theorem rounded_unit_mul (sign : Sign) (x : ℚ) : rounded (unit sign * x) = unit sign * rounded x := by
  cases sign with
  | negative => rw [unit, neg_one_mul, neg_one_mul, rounded_neg]
  | positive => rw [unit, one_mul, one_mul]

theorem apply_cast (sign : Sign) (whole : ℤ) : (sign.apply whole : ℚ) = unit sign * whole := by
  cases sign <;> simp [Sign.apply, unit]

/-! ### Shifting to the last place -/

theorem target_eq (mantissa : ℕ) (exponent : ℤ) :
    Format.binary64.targetExponent (totalExponent mantissa exponent) =
      max (mantissa.log2 + exponent - 52) (-1074) := by
  unfold Format.targetExponent totalExponent
  rw [show (Format.binary64.mantissaBits : ℤ) = 53 by rfl,
    show Format.binary64.minExponent = -1074 by rfl]
  omega

theorem log_of_bounds {mantissa : ℕ} (positive : 0 < mantissa) {x : ℚ} (low : mantissa ≤ x)
    (high : x < mantissa + 1) (exponent : ℤ) :
    Int.log 2 |x * 2 ^ exponent| = mantissa.log2 + exponent := by
  have nonneg : (0 : ℚ) < x := lt_of_lt_of_le (by exact_mod_cast positive) low
  have size : |x * 2 ^ exponent| = x * 2 ^ exponent :=
    abs_of_pos (mul_pos nonneg (two_zpow_pos _))
  have first : (2 : ℚ) ^ mantissa.log2 ≤ x := by
    refine le_trans ?_ low
    exact_mod_cast Nat.log2_self_le positive.ne'
  have next : x < (2 : ℚ) ^ (mantissa.log2 + 1) := by
    refine lt_of_lt_of_le high ?_
    exact_mod_cast Nat.lt_log2_self (n := mantissa)
  apply le_antisymm
  · refine Int.lt_add_one_iff.mp (log_lt_of_abs_lt (mul_pos nonneg (two_zpow_pos _)).ne' ?_)
    rw [size, show (mantissa.log2 : ℤ) + exponent + 1 = ((mantissa.log2 + 1 : ℕ) : ℤ) + exponent by
      push_cast; ring, two_zpow_add, zpow_natCast]
    exact mul_lt_mul_of_pos_right next (two_zpow_pos _)
  · refine le_log_of_le_abs ?_
    rw [size, two_zpow_add, zpow_natCast]
    exact mul_le_mul_of_nonneg_right first (two_zpow_pos _).le

theorem target_eq_lastPlace {mantissa : ℕ} {exponent : ℤ} {x : ℚ} (positive : 0 < x)
    (low : mantissa ≤ x) (high : x < mantissa + 1) (deep : exponent ≤ lastPlace (x * 2 ^ exponent)) :
    Format.binary64.targetExponent (totalExponent mantissa exponent) =
      lastPlace (x * 2 ^ exponent) := by
  rw [target_eq]
  rcases Nat.eq_zero_or_pos mantissa with rfl | nonzero
  · -- no place is left: the number is smaller than its exponent says
    have small : |x * 2 ^ exponent| < 2 ^ exponent := by
      rw [abs_of_pos (mul_pos positive (two_zpow_pos _))]
      rw [Nat.cast_zero, zero_add] at high
      exact mul_lt_of_lt_one_left (two_zpow_pos _) high
    have log := log_lt_of_abs_lt (mul_pos positive (two_zpow_pos exponent)).ne' small
    have zero : Nat.log2 0 = 0 := by decide
    unfold lastPlace at deep ⊢
    rw [zero]
    push_cast
    omega
  · rw [lastPlace, log_of_bounds nonzero low high]

/-- A carry out of the last place is taken back by one more shift. -/
theorem shift_carry {mantissa : ℕ} {exponent : ℤ} (short : mantissa ≤ 2 ^ 53)
    (inside : -1074 ≤ exponent) (full : 2 ^ 52 ≤ mantissa ∨ exponent = -1074) :
    let shifted := shiftToTargetExponent Format.binary64 mantissa exponent .exact
    (shifted.1.mantissa : ℚ) * 2 ^ shifted.2 = mantissa * 2 ^ exponent ∧
      HasPlaces shifted.1.mantissa shifted.2 := by
  intro shifted
  rcases short.eq_or_lt with rfl | short
  · have target : Format.binary64.targetExponent (totalExponent (2 ^ 53) exponent) =
        exponent + 1 := by
      rw [target_eq, Nat.log2_two_pow]
      omega
    have isShifted : shifted = (⟨2 ^ 52, false, false⟩, exponent + 1) := by
      simp only [shifted, shiftToTargetExponent, shiftToExponent, target]
      rw [show (exponent + 1 - exponent).toNat = 1 by omega]
      rfl
    rw [isShifted]
    refine ⟨?_, ⟨by norm_num, by omega, .inl (le_refl _)⟩⟩
    rw [two_zpow_add]
    push_cast
    ring
  · have target : Format.binary64.targetExponent (totalExponent mantissa exponent) ≤
        exponent := by
      have log : mantissa.log2 ≤ 52 := by
        rcases Nat.eq_zero_or_pos mantissa with rfl | positive
        · decide
        · have below : mantissa.log2 < 53 := (Nat.log2_lt positive.ne').mpr short
          omega
      rw [target_eq]
      omega
    have isShifted : shifted = (⟨mantissa, false, false⟩, exponent) := by
      simp only [shifted, shiftToTargetExponent, shiftToExponent]
      rw [show (Format.binary64.targetExponent (totalExponent mantissa exponent) -
        exponent).toNat = 0 by omega, Nat.cast_zero, add_zero]
      rfl
    rw [isShifted]
    exact ⟨rfl, short, inside, full⟩

/-- The first shift ends at the last place and keeps what the mantissa stands for. -/
theorem shift_approximates {mantissa : ℕ} {exponent : ℤ} {accuracy : Accuracy} {x : ℚ}
    (positive : 0 < x)
    (approximates : Approximates (.ofMantissaAndAccuracy mantissa accuracy) x)
    (deep : exponent ≤ lastPlace (x * 2 ^ exponent)) :
    ∃ extended, shiftToTargetExponent Format.binary64 mantissa exponent accuracy =
        (extended, lastPlace (x * 2 ^ exponent)) ∧
      Approximates extended (x * 2 ^ exponent / 2 ^ lastPlace (x * 2 ^ exponent)) := by
  have bounds : (mantissa : ℚ) ≤ x ∧ x < mantissa + 1 := by
    have bounds := approximates.bounds
    cases accuracy with
    | exact => exact bounds
    | inexact ordering => cases ordering <;> exact bounds
  have target := target_eq_lastPlace positive bounds.1 bounds.2 deep
  have places : lastPlace (x * 2 ^ exponent) =
      exponent + (lastPlace (x * 2 ^ exponent) - exponent).toNat := by omega
  generalize (lastPlace (x * 2 ^ exponent) - exponent).toNat = shift at places
  refine ⟨ExtendedMantissa.ofMantissaAndAccuracy mantissa accuracy >>> shift, ?_, ?_⟩
  · simp only [shiftToTargetExponent, shiftToExponent, target, places]
    rw [show (exponent + (shift : ℤ) - exponent).toNat = shift by omega]
  · have units : x * 2 ^ exponent / 2 ^ lastPlace (x * 2 ^ exponent) = x / 2 ^ shift := by
      rw [places, two_zpow_add, zpow_natCast, mul_comm (2 ^ exponent : ℚ),
        mul_div_mul_right _ _ (two_zpow_pos exponent).ne']
    rw [units]
    exact approximates.shiftRight shift

/-- Whatever is known of a positive number, it is rounded to the nearest even one, if its mantissa
does not begin below the last place. -/
theorem roundWithAccuracy_rounds (sign : Sign) {mantissa : ℕ} {exponent : ℤ} {accuracy : Accuracy}
    {x : ℚ} (positive : 0 < x)
    (approximates : Approximates (.ofMantissaAndAccuracy mantissa accuracy) x)
    (deep : exponent ≤ lastPlace (x * 2 ^ exponent)) :
    Rounds (roundWithAccuracy Format.binary64 sign mantissa exponent accuracy)
      (unit sign * (x * 2 ^ exponent)) := by
  obtain ⟨extended, shifted, stands⟩ := shift_approximates positive approximates deep
  have positiveProduct : 0 < x * 2 ^ exponent := mul_pos positive (two_zpow_pos _)
  generalize x * 2 ^ exponent = whole at *
  have nearest := stands.roundedMantissa_eq
  have size := abs_div_lastPlace_lt whole
  have unitsPositive : 0 < whole / 2 ^ lastPlace whole := div_pos positiveProduct (two_zpow_pos _)
  rw [abs_of_pos unitsPositive] at size
  have short : extended.roundedMantissa ≤ 2 ^ 53 := by
    have le := nearestEven.le_intCast (n := 2 ^ 53) (by exact_mod_cast size.le)
    omega
  have full : 2 ^ 52 ≤ extended.roundedMantissa ∨ lastPlace whole = -1074 := by
    rcases (lastPlace_ge whole).eq_or_lt with last | inner
    · exact .inr last.symm
    · have large := le_abs_div_lastPlace positiveProduct.ne' inner
      rw [abs_of_pos unitsPositive] at large
      have le := nearestEven.intCast_le (n := 2 ^ 52) (by exact_mod_cast large)
      exact .inl (by omega)
  obtain ⟨carried, places⟩ := shift_carry short (lastPlace_ge whole) full
  have isRounded : (extended.roundedMantissa : ℚ) * 2 ^ lastPlace whole = rounded whole := by
    rw [rounded, ← nearest, Int.cast_natCast]
  rw [isRounded] at carried
  unfold roundWithAccuracy
  rw [shifted]
  dsimp only
  split
  · next zero =>
      rw [zero, Nat.cast_zero, zero_mul] at carried
      exact ⟨rfl, trivial, by rw [rounded_unit_mul, ← carried, mul_zero]; rfl⟩
  · exact ⟨rfl, places, by rw [rounded_unit_mul, ← carried]; rfl⟩

/-! ### Numbers that are given exactly -/

theorem log_natCast {mantissa : ℕ} (positive : 0 < mantissa) (exponent : ℤ) :
    Int.log 2 |(mantissa : ℚ) * 2 ^ exponent| = mantissa.log2 + exponent :=
  log_of_bounds positive (le_refl _) (by linarith) exponent

theorem decreaseExponent_eq (mantissa : ℕ) (exponent target : ℤ) :
    ∃ shifted : ℕ, decreaseExponent mantissa exponent target = (shifted, min exponent target) ∧
      (shifted : ℚ) * 2 ^ min exponent target = mantissa * 2 ^ exponent := by
  have lower : exponent - (exponent - target).toNat = min exponent target := by omega
  refine ⟨mantissa <<< (exponent - target).toNat, by rw [decreaseExponent, lower], ?_⟩
  rw [← lower, Nat.shiftLeft_eq]
  push_cast
  rw [mul_assoc, ← zpow_natCast (2 : ℚ), ← two_zpow_add, add_sub_cancel]

theorem round_rounds (sign : Sign) {mantissa : ℕ} (positive : 0 < mantissa) (exponent : ℤ) :
    Rounds (UnpackedFloat.round Format.binary64 sign mantissa exponent)
      (unit sign * (mantissa * 2 ^ exponent)) := by
  have place : lastPlace (mantissa * 2 ^ exponent) =
      Format.binary64.targetExponent (totalExponent mantissa exponent) := by
    rw [lastPlace, log_natCast positive, target_eq]
  obtain ⟨shifted, decreased, same⟩ := decreaseExponent_eq mantissa exponent
    (Format.binary64.targetExponent (totalExponent mantissa exponent))
  have positiveShifted : (0 : ℚ) < shifted := by
    have product := magnitude_pos positive exponent
    rw [← same] at product
    exact (mul_pos_iff_of_pos_right (two_zpow_pos _)).mp product
  unfold UnpackedFloat.round
  dsimp only
  rw [decreased, ← same]
  refine roundWithAccuracy_rounds sign positiveShifted (.exact shifted) ?_
  rw [same, place]
  exact min_le_right _ _

theorem normalize_rounds (mantissa exponent : ℤ) (zeroSign : Sign) :
    Rounds (UnpackedFloat.normalize Format.binary64 mantissa exponent zeroSign)
      (mantissa * 2 ^ exponent) := by
  unfold UnpackedFloat.normalize
  rcases lt_trichotomy mantissa 0 with negative | rfl | positive
  · rw [compare_lt_iff_lt.mpr negative]
    have rounds := @round_rounds .negative (-mantissa).toNat (by omega) exponent
    have magnitude : (((-mantissa).toNat : ℤ) : ℚ) = -mantissa := by
      rw [Int.toNat_of_nonneg (by omega)]
      push_cast
      rfl
    rw [Int.cast_natCast] at magnitude
    rwa [magnitude, unit, neg_one_mul, neg_mul, neg_neg] at rounds
  · rw [compare_eq_iff_eq.mpr rfl, Int.cast_zero, zero_mul]
    exact ⟨rfl, trivial, rounded_zero.symm⟩
  · rw [compare_gt_iff_gt.mpr positive]
    have rounds := @round_rounds .positive mantissa.toNat (by omega) exponent
    have magnitude : ((mantissa.toNat : ℤ) : ℚ) = mantissa := by
      rw [Int.toNat_of_nonneg (by omega)]
    rw [Int.cast_natCast] at magnitude
    rwa [magnitude, unit, one_mul] at rounds

/-! ### Finite numbers -/

variable {first : UnpackedFloat}

theorem value_zero (sign : Sign) : value (.zero sign) = 0 := rfl

theorem value_finite (sign : Sign) (mantissa : ℕ) (exponent : ℤ) (positive : 0 < mantissa) :
    value (.finite sign mantissa exponent positive) = unit sign * (mantissa * 2 ^ exponent) := rfl

theorem finite_cases (isFinite : first.isFinite = true) :
    (∃ sign, first = .zero sign) ∨
      ∃ sign mantissa exponent positive, first = .finite sign mantissa exponent positive := by
  cases first with
  | infinity sign => cases isFinite
  | notANumber => cases isFinite
  | zero sign => exact .inl ⟨sign, rfl⟩
  | finite sign mantissa exponent positive => exact .inr ⟨sign, mantissa, exponent, positive, rfl⟩

theorem HasPlaces.onGrid {mantissa : ℕ} {exponent : ℤ} (places : HasPlaces mantissa exponent) :
    OnGrid (mantissa * 2 ^ exponent) := by
  refine ⟨mantissa, exponent, ?_, places.inside, by push_cast; rfl⟩
  have short := places.short
  rw [abs_of_nonneg (by omega)]
  exact_mod_cast short

theorem onGrid_value (canonical : IsCanonical first) : OnGrid (value first) := by
  cases first with
  | finite sign mantissa exponent positive =>
      have onGrid := HasPlaces.onGrid canonical
      cases sign with
      | negative =>
          rw [value_finite, unit, neg_one_mul]
          exact onGrid.neg
      | positive =>
          rw [value_finite, unit, one_mul]
          exact onGrid
  | _ => exact onGrid_zero

theorem rounds_self (isFinite : first.isFinite = true) (canonical : IsCanonical first) :
    Rounds first (value first) :=
  ⟨isFinite, canonical, (onGrid_value canonical).rounded_eq.symm⟩

end Unpacked

end TikzChart
