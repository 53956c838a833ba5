import TikzChart.Decimal.Dyadic
import TikzChart.Proofs.Rounding.Comparison
import TikzChart.Proofs.Rounding.Operations
import TikzChart.Proofs.Rounding.Packing

/-!
The arithmetic of floats in terms of exact values. An operation on two finite floats gives the
rounded exact result, or an infinity when that is too large (`IsRounding`); comparisons compare
exact values.
-/

set_option autoImplicit false

namespace TikzChart

open Float.Model Unpacked

def Dyadic.value (x : Dyadic) : ℚ :=
  (if x.negative then -1 else 1) * (x.mantissa * 2 ^ x.exponent)

/-- The exact value of a finite float. -/
def exactValue (x : Float) : ℚ := (Dyadic.ofFloat x).value

/-- The float is the result of rounding: the rounded number, or an infinity if that is too large. -/
inductive IsRounding (x : Float) (value : ℚ) : Prop
  | finite (isFinite : x.isFinite = true) (exactValue_eq : exactValue x = rounded value)
    (small : |rounded value| < 2 ^ (1024 : ℤ)) : IsRounding x value
  | infinite (isInf : x.isInf = true) (large : 2 ^ (1024 : ℤ) ≤ |rounded value|) :
    IsRounding x value

variable {x y : Float}

/-! ### Finite floats -/

theorem exactValue_eq (isFinite : x.isFinite = true) : exactValue x = value x.toModel.unpack := by
  have read := value_unpack x.toModel.toBits.toBitVec isFinite
  refine Eq.trans ?_ read.symm
  unfold exactValue Dyadic.ofFloat Dyadic.value
  change (if decide (2 ^ 63 ≤ x.toModel.toBits.toBitVec.toNat) = true then (-1 : ℚ) else 1) *
    (((if x.toModel.toBits.toBitVec.toNat / 2 ^ 52 % 2 ^ 11 = 0 then
        x.toModel.toBits.toBitVec.toNat % 2 ^ 52
      else 2 ^ 52 + x.toModel.toBits.toBitVec.toNat % 2 ^ 52 : ℕ) : ℚ) *
    2 ^ (if x.toModel.toBits.toBitVec.toNat / 2 ^ 52 % 2 ^ 11 = 0 then (-1074 : ℤ)
      else ((x.toModel.toBits.toBitVec.toNat / 2 ^ 52 % 2 ^ 11 : ℕ) : ℤ) - 1075)) = _
  simp only [decide_eq_true_eq]
  split_ifs <;> rfl

theorem onGrid_exactValue (isFinite : x.isFinite = true) : OnGrid (exactValue x) := by
  rw [exactValue_eq isFinite]
  exact onGrid_value (canonical_unpack _).1

theorem rounded_exactValue (isFinite : x.isFinite = true) :
    rounded (exactValue x) = exactValue x := (onGrid_exactValue isFinite).rounded_eq

theorem abs_exactValue_lt (isFinite : x.isFinite = true) : |exactValue x| < 2 ^ (1024 : ℤ) := by
  obtain ⟨canonical, fits⟩ := canonical_unpack x.toModel.toBits.toBitVec
  have form : x.toModel.unpack.isFinite = true := isFinite
  rw [exactValue_eq isFinite]
  rcases finite_cases form with
    ⟨sign, isZero⟩ | ⟨sign, mantissa, exponent, positive, isFiniteForm⟩
  · rw [isZero, value_zero, abs_zero]
    exact two_zpow_pos _
  · change IsCanonical x.toModel.unpack at canonical
    change Fits x.toModel.unpack at fits
    rw [isFiniteForm] at canonical fits ⊢
    have short : (mantissa : ℚ) < 2 ^ (53 : ℤ) := by exact_mod_cast canonical.short
    have room : (2 : ℚ) ^ exponent ≤ 2 ^ (971 : ℤ) := two_zpow_le fits
    rw [value_finite, abs_mul, abs_unit, one_mul, abs_of_pos (magnitude_pos positive _)]
    calc
      _ < 2 ^ (53 : ℤ) * 2 ^ exponent := mul_lt_mul_of_pos_right short (two_zpow_pos _)
      _ ≤ 2 ^ (53 : ℤ) * 2 ^ (971 : ℤ) := mul_le_mul_of_nonneg_left room (two_zpow_pos _).le
      _ = 2 ^ (1024 : ℤ) := by rw [← two_zpow_add]; rfl

/-! ### Operations -/

theorem unpack_ofModel_pack {unpacked : UnpackedFloat} (canonical : IsCanonical unpacked)
    (fits : Fits unpacked) : (Float.ofModel (.pack unpacked)).toModel.unpack = unpacked :=
  unpack_pack canonical fits

/-- So large an exponent leaves all places to the mantissa. -/
theorem limit_le_of_large {mantissa : ℕ} {exponent : ℤ} (places : HasPlaces mantissa exponent)
    (beyond : 971 < exponent) : (2 : ℚ) ^ (1024 : ℤ) ≤ mantissa * 2 ^ exponent := by
  have large : (2 : ℚ) ^ (52 : ℤ) ≤ mantissa := by
    exact_mod_cast places.full.resolve_right (by omega)
  calc
    (2 : ℚ) ^ (1024 : ℤ) = 2 ^ (52 : ℤ) * 2 ^ (972 : ℤ) := by rw [← two_zpow_add]; rfl
    _ ≤ 2 ^ (52 : ℤ) * 2 ^ exponent :=
      mul_le_mul_of_nonneg_left (two_zpow_le beyond) (two_zpow_pos _).le
    _ ≤ mantissa * 2 ^ exponent := mul_le_mul_of_nonneg_right large (two_zpow_pos _).le

/-- Packing decides whether a rounded number is too large. -/
theorem isRounding_pack {unpacked : UnpackedFloat} {value : ℚ} (rounds : Rounds unpacked value) :
    IsRounding (.ofModel (.pack unpacked)) value := by
  obtain ⟨isFinite, canonical, isValue⟩ := rounds
  by_cases fits : Fits unpacked
  · have back := unpack_ofModel_pack canonical fits
    have packedFinite : (Float.ofModel (.pack unpacked)).isFinite = true :=
      (congrArg UnpackedFloat.isFinite back).trans isFinite
    have same : exactValue (.ofModel (.pack unpacked)) = rounded value := by
      rw [exactValue_eq packedFinite, back, isValue]
    exact .finite packedFinite same (same ▸ abs_exactValue_lt packedFinite)
  · rcases finite_cases isFinite with ⟨sign, rfl⟩ | ⟨sign, mantissa, exponent, positive, rfl⟩
    · exact absurd trivial fits
    · have beyond : 971 < exponent := not_le.mp fits
      have back : (Float.ofModel (.pack (.finite sign mantissa exponent positive))).toModel.unpack =
          .infinity sign := unpack_pack_large sign positive beyond
      refine .infinite (congrArg UnpackedFloat.isInf back) ?_
      rw [← isValue, value_finite, abs_mul, abs_unit, one_mul,
        abs_of_pos (magnitude_pos positive _)]
      exact limit_le_of_large canonical beyond

theorem isRounding_add (xFinite : x.isFinite = true) (yFinite : y.isFinite = true) :
    IsRounding (x + y) (exactValue x + exactValue y) := by
  rw [exactValue_eq xFinite, exactValue_eq yFinite]
  exact isRounding_pack
    (add_rounds xFinite yFinite (canonical_unpack _).1 (canonical_unpack _).1)

theorem isRounding_sub (xFinite : x.isFinite = true) (yFinite : y.isFinite = true) :
    IsRounding (x - y) (exactValue x - exactValue y) := by
  rw [exactValue_eq xFinite, exactValue_eq yFinite]
  exact isRounding_pack
    (sub_rounds xFinite yFinite (canonical_unpack _).1 (canonical_unpack _).1)

theorem isRounding_mul (xFinite : x.isFinite = true) (yFinite : y.isFinite = true) :
    IsRounding (x * y) (exactValue x * exactValue y) := by
  rw [exactValue_eq xFinite, exactValue_eq yFinite]
  exact isRounding_pack
    (mul_rounds xFinite yFinite (canonical_unpack _).1 (canonical_unpack _).1)

theorem isRounding_div (xFinite : x.isFinite = true) (yFinite : y.isFinite = true)
    (nonzero : exactValue y ≠ 0) : IsRounding (x / y) (exactValue x / exactValue y) := by
  rw [exactValue_eq yFinite] at nonzero
  rw [exactValue_eq xFinite, exactValue_eq yFinite]
  exact isRounding_pack (div_rounds xFinite yFinite nonzero)

theorem isFinite_of_isInf (isInf : x.isInf = true) : x.isFinite = false := by
  change x.toModel.unpack.isInf = true at isInf
  change x.toModel.unpack.isFinite = false
  cases form : x.toModel.unpack with
  | infinity sign => rfl
  | _ =>
      rw [form] at isInf
      cases isInf

namespace IsRounding

variable {value : ℚ}

theorem exactValue_eq (rounding : IsRounding x value) (isFinite : x.isFinite = true) :
    exactValue x = rounded value := by
  cases rounding with
  | finite _ same _ => exact same
  | infinite isInf _ => exact absurd (isFinite_of_isInf isInf) (by simp [isFinite])

theorem isFinite_of_lt (rounding : IsRounding x value)
    (small : |rounded value| < 2 ^ (1024 : ℤ)) : x.isFinite = true := by
  cases rounding with
  | finite isFinite _ _ => exact isFinite
  | infinite _ large => exact absurd small (not_lt.mpr large)

/-- Rounding ends at a finite float if the number is no larger than a float. -/
theorem isFinite_of_le (rounding : IsRounding x value) {bound : ℚ} (onGrid : OnGrid bound)
    (small : bound < 2 ^ (1024 : ℤ)) (le : |value| ≤ bound) : x.isFinite = true :=
  rounding.isFinite_of_lt
    ((abs_rounded value).trans_le (rounded_le onGrid le) |>.trans_lt small)

end IsRounding

/-! ### Comparisons -/

theorem isNaN_of_isFinite (isFinite : x.isFinite = true) : x.isNaN = false := by
  have form : x.toModel.unpack.isFinite = true := isFinite
  change x.toModel.unpack.isNaN = false
  cases isNaN : x.toModel.unpack with
  | notANumber =>
      rw [isNaN] at form
      cases form
  | _ => rfl

theorem compare_exactValue (xFinite : x.isFinite = true) (yFinite : y.isFinite = true) :
    UnpackedFloat.compare x.toModel.unpack y.toModel.unpack =
      some (compare (exactValue x) (exactValue y)) := by
  rw [TikzChart.exactValue_eq xFinite, TikzChart.exactValue_eq yFinite]
  exact compare_eq xFinite yFinite (canonical_unpack _).1 (canonical_unpack _).1

theorem lt_iff_exactValue_lt (xFinite : x.isFinite = true) (yFinite : y.isFinite = true) :
    x < y ↔ exactValue x < exactValue y := by
  change decide ((UnpackedFloat.compare x.toModel.unpack y.toModel.unpack == some .lt) = true) =
    true ↔ _
  rw [compare_exactValue xFinite yFinite, decide_eq_true_eq, beq_iff_eq, Option.some_inj]
  exact compare_lt_iff_lt

theorem le_iff_exactValue_le (xFinite : x.isFinite = true) (yFinite : y.isFinite = true) :
    x ≤ y ↔ exactValue x ≤ exactValue y := by
  change decide ((UnpackedFloat.compare x.toModel.unpack y.toModel.unpack).any (·.isLE) = true) =
    true ↔ _
  rw [compare_exactValue xFinite yFinite, decide_eq_true_eq, Option.any_some]
  exact Std.LawfulBCmp.isLE_iff_le

theorem le_of_lt_of_isFinite (xFinite : x.isFinite = true) (yFinite : y.isFinite = true)
    (less : x < y) : x ≤ y :=
  (le_iff_exactValue_le xFinite yFinite).mpr ((lt_iff_exactValue_lt xFinite yFinite).mp less).le

/-! ### Results that are finite -/

theorem isFinite_of_pack {unpacked : UnpackedFloat}
    (isFinite : (Float.ofModel (.pack unpacked)).isFinite = true) : unpacked.isFinite = true := by
  cases unpacked with
  | infinity sign =>
      exact (congrArg UnpackedFloat.isFinite (unpack_pack_infinity sign)).symm.trans isFinite
  | notANumber => exact isFinite
  | zero sign => rfl
  | finite sign mantissa exponent positive => rfl

theorem isFinite_of_add (isFinite : (x + y).isFinite = true) :
    x.isFinite = true ∧ y.isFinite = true := finite_of_add (isFinite_of_pack isFinite)

theorem isFinite_of_sub (isFinite : (x - y).isFinite = true) :
    x.isFinite = true ∧ y.isFinite = true := finite_of_sub (isFinite_of_pack isFinite)

theorem isFinite_of_mul (isFinite : (x * y).isFinite = true) :
    x.isFinite = true ∧ y.isFinite = true := finite_of_mul (isFinite_of_pack isFinite)

theorem isFinite_of_div (isFinite : (x / y).isFinite = true) : x.isFinite = true :=
  finite_of_div (isFinite_of_pack isFinite)

theorem exactValue_ne_zero_of_div (isFinite : (x / y).isFinite = true)
    (yFinite : y.isFinite = true) : exactValue y ≠ 0 := by
  rw [exactValue_eq yFinite]
  exact value_ne_zero_of_div (isFinite_of_pack isFinite) yFinite

end TikzChart
