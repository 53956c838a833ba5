import TikzChart.Layout.PlotNumber
import TikzChart.Proofs.Rounding.FloatArithmetic

/-!
Whole numbers as floats. Below `2 ^ 53` they are exact, and rounding a float to a whole number gives
what rounding its exact value gives.
-/

set_option autoImplicit false

namespace TikzChart

open Float.Model Unpacked

variable {x : Float}

/-! ### Negation -/

theorem neg_exact (isFinite : x.isFinite = true) :
    (-x).isFinite = true ∧ exactValue (-x) = -exactValue x := by
  obtain ⟨canonical, fits⟩ := canonical_unpack x.toModel.toBits.toBitVec
  have back : (-x).toModel.unpack = x.toModel.unpack.neg :=
    unpack_ofModel_pack canonical.neg fits.neg
  have negFinite : (-x).isFinite = true :=
    (congrArg UnpackedFloat.isFinite back).trans (isFinite_neg.trans isFinite)
  exact ⟨negFinite, by rw [exactValue_eq negFinite, back, value_neg, exactValue_eq isFinite]⟩

/-! ### Natural numbers -/

theorem isRounding_toFloat (n : UInt64) : IsRounding n.toFloat n.toNat := by
  have rounds := normalize_rounds n.toNat 0 .positive
  rw [zpow_zero, mul_one, Int.cast_natCast] at rounds
  exact isRounding_pack rounds

theorem isFinite_one : (Float.ofBits 0x3FF0000000000000).isFinite = true := by decide +kernel

theorem exactValue_one : exactValue (Float.ofBits 0x3FF0000000000000) = 1 := by
  have form : Dyadic.ofFloat (Float.ofBits 0x3FF0000000000000) = ⟨false, 2 ^ 52, -52⟩ := by
    decide +kernel
  rw [exactValue, form, Dyadic.value]
  norm_num

theorem onGrid_natCast {n : ℕ} (small : n < 2 ^ 53) : OnGrid n := by
  have whole := @onGrid_intCast n (by rw [abs_of_nonneg (by omega)]; omega)
  rwa [Int.cast_natCast] at whole

theorem natCast_lt_limit {n : ℕ} (small : n < 2 ^ 53) : (n : ℚ) < 2 ^ (1024 : ℤ) := by
  have castSmall : (n : ℚ) < 2 ^ (53 : ℤ) := by exact_mod_cast small
  exact castSmall.trans_le (two_zpow_le (by norm_num))

theorem ofNat_exact {n : ℕ} (small : n < 2 ^ 53) :
    (Float.ofNat n).isFinite = true ∧ exactValue (Float.ofNat n) = n := by
  have same : n.toUInt64.toNat = n := by
    rw [UInt64.toNat_ofNat']
    omega
  have rounding := isRounding_toFloat n.toUInt64
  rw [same] at rounding
  have wordFinite := rounding.isFinite_of_le (onGrid_natCast small) (natCast_lt_limit small)
    (abs_of_nonneg n.cast_nonneg).le
  have wordValue : exactValue n.toUInt64.toFloat = n := by
    rw [rounding.exactValue_eq wordFinite, (onGrid_natCast small).rounded_eq]
  -- the factor is the zeroth power of ten
  have product := isRounding_mul wordFinite isFinite_one
  rw [wordValue, exactValue_one, mul_one] at product
  have reads : Float.ofNat n = n.toUInt64.toFloat * Float.ofBits 0x3FF0000000000000 := by
    change Float.ofScientific n false 0 = _
    unfold Float.ofScientific
    rw [dif_pos ⟨small, by norm_num⟩]
    rfl
  rw [reads]
  have isFinite := product.isFinite_of_le (onGrid_natCast small) (natCast_lt_limit small)
    (abs_of_nonneg n.cast_nonneg).le
  exact ⟨isFinite, by rw [product.exactValue_eq isFinite, (onGrid_natCast small).rounded_eq]⟩

theorem zero_add_exact (isFinite : x.isFinite = true) :
    (Float.ofNat 0 + x).isFinite = true ∧ exactValue (Float.ofNat 0 + x) = exactValue x := by
  obtain ⟨zeroFinite, isZero⟩ := ofNat_exact (n := 0) (by norm_num)
  have sum := isRounding_add zeroFinite isFinite
  rw [isZero, Nat.cast_zero, zero_add] at sum
  have sumFinite := sum.isFinite_of_lt
    (by rw [rounded_exactValue isFinite]; exact abs_exactValue_lt isFinite)
  exact ⟨sumFinite, (sum.exactValue_eq sumFinite).trans (rounded_exactValue isFinite)⟩

theorem sub_zero_exact (isFinite : x.isFinite = true) :
    (x - Float.ofNat 0).isFinite = true ∧ exactValue (x - Float.ofNat 0) = exactValue x := by
  obtain ⟨zeroFinite, isZero⟩ := ofNat_exact (n := 0) (by norm_num)
  have difference := isRounding_sub isFinite zeroFinite
  rw [isZero, Nat.cast_zero, sub_zero] at difference
  have differenceFinite := difference.isFinite_of_lt
    (by rw [rounded_exactValue isFinite]; exact abs_exactValue_lt isFinite)
  exact ⟨differenceFinite,
    (difference.exactValue_eq differenceFinite).trans (rounded_exactValue isFinite)⟩

theorem signed_exact (negative : Bool) {n : ℕ} (small : n < 2 ^ 53) :
    (Whole.signed negative n).isFinite = true ∧
      exactValue (Whole.signed negative n) = (if negative then -1 else 1) * n := by
  obtain ⟨isFinite, same⟩ := ofNat_exact small
  cases negative with
  | true =>
      obtain ⟨negFinite, isNeg⟩ := neg_exact isFinite
      exact ⟨negFinite, isNeg.trans (by rw [same]; simp)⟩
  | false => exact ⟨isFinite, same.trans (by simp)⟩

/-! ### Rounding to a whole number -/

theorem floor_natCast_add_half (mantissa down : ℕ) :
    ⌊(mantissa : ℚ) * 2 ^ (Int.negSucc down) + 1 / 2⌋ =
      ((mantissa + 2 ^ down) / 2 ^ (down + 1) : ℕ) := by
  have sum : (mantissa : ℚ) * 2 ^ (Int.negSucc down) + 1 / 2 =
      ((mantissa + 2 ^ down : ℕ) : ℚ) / ((2 ^ (down + 1) : ℕ) : ℚ) := by
    rw [zpow_negSucc]
    push_cast
    field_simp
    ring
  rw [sum, Rat.floor_natCast_div_natCast]
  rfl

theorem floor_wholeCast_add_half (whole : ℤ) : ⌊(whole : ℚ) + 1 / 2⌋ = whole := by
  rw [Int.floor_eq_iff]
  constructor <;> linarith

theorem roundRat_of_nonneg {value : ℚ} (nonneg : 0 ≤ value) :
    roundRat value = ⌊value + 1 / 2⌋ := if_neg (not_lt.mpr nonneg)

theorem roundRat_neg_of_nonneg {value : ℚ} (nonneg : 0 ≤ value) :
    roundRat (-value) = -⌊value + 1 / 2⌋ := by
  rcases nonneg.eq_or_lt with rfl | positive
  · rw [neg_zero, roundRat_of_nonneg (le_refl 0)]
    norm_num
  · unfold roundRat
    rw [if_pos (neg_neg_of_pos positive), sub_neg_eq_add, add_comm]
    rfl

namespace Dyadic

theorem value_of_negative {exact : Dyadic} (negative : exact.negative = true) :
    exact.value = -(exact.mantissa * 2 ^ exact.exponent) := by
  rw [value, if_pos negative, neg_one_mul]

theorem value_of_not_negative {exact : Dyadic} (positive : exact.negative = false) :
    exact.value = exact.mantissa * 2 ^ exact.exponent := by
  rw [value, if_neg (Bool.not_eq_true _ ▸ positive), one_mul]

theorem magnitude_nonneg (exact : Dyadic) : (0 : ℚ) ≤ exact.mantissa * 2 ^ exact.exponent :=
  mul_nonneg (Nat.cast_nonneg _) (two_zpow_pos _).le

/-- Without places below one the magnitude is whole. -/
theorem wholePart_of_nonneg {exact : Dyadic} (nonneg : 0 ≤ exact.exponent) :
    (exact.wholePart : ℚ) = exact.mantissa * 2 ^ exact.exponent := by
  rcases exact with ⟨negative, mantissa, up | down⟩
  · change ((mantissa * 2 ^ up : ℕ) : ℚ) = mantissa * 2 ^ (up : ℤ)
    rw [zpow_natCast]
    push_cast
    rfl
  · exact absurd nonneg (by simp)

theorem nearestWhole_eq (exact : Dyadic) :
    (exact.nearestWhole : ℤ) = ⌊(exact.mantissa : ℚ) * 2 ^ exact.exponent + 1 / 2⌋ := by
  rcases exact with ⟨negative, mantissa, up | down⟩
  · have floor := floor_wholeCast_add_half ((mantissa * 2 ^ up : ℕ) : ℤ)
    have whole := @wholePart_of_nonneg ⟨negative, mantissa, up⟩ (Int.natCast_nonneg up)
    rw [Int.cast_natCast] at floor
    exact whole ▸ floor.symm
  · exact (floor_natCast_add_half mantissa down).symm

end Dyadic

theorem abs_exactValue (x : Float) : |exactValue x| =
    (Dyadic.ofFloat x).mantissa * 2 ^ (Dyadic.ofFloat x).exponent := by
  rw [exactValue]
  cases negative : (Dyadic.ofFloat x).negative with
  | true =>
      rw [Dyadic.value_of_negative negative, abs_neg]
      exact abs_of_nonneg (Dyadic.magnitude_nonneg _)
  | false =>
      rw [Dyadic.value_of_not_negative negative]
      exact abs_of_nonneg (Dyadic.magnitude_nonneg _)

theorem roundRat_value (exact : Dyadic) :
    roundRat exact.value = (if exact.negative then -1 else 1) * (exact.nearestWhole : ℚ) := by
  have nearest : ((exact.nearestWhole : ℤ) : ℚ) = _ := congrArg _ exact.nearestWhole_eq
  rw [Int.cast_natCast] at nearest
  rw [nearest]
  cases negative : exact.negative with
  | true =>
      rw [Dyadic.value_of_negative negative, roundRat_neg_of_nonneg exact.magnitude_nonneg,
        if_pos rfl, neg_one_mul]
  | false =>
      rw [Dyadic.value_of_not_negative negative, roundRat_of_nonneg exact.magnitude_nonneg,
        if_neg Bool.false_ne_true, one_mul]

theorem exists_roundRat_eq (value : ℚ) : ∃ whole : ℤ, roundRat value = whole := by
  unfold roundRat
  split
  · exact ⟨-(1 / 2 - value).floor, by push_cast; rfl⟩
  · exact ⟨(value + 1 / 2).floor, rfl⟩

theorem half_le_of_roundRat_pos {value : ℚ} (positive : 0 < roundRat value) : 1 / 2 ≤ value := by
  rcases le_total 0 value with nonneg | nonpos
  · rw [roundRat_of_nonneg nonneg, Int.cast_pos] at positive
    have floor := (Int.floor_le (value + 1 / 2)).trans'
      (Int.cast_le.mpr (Int.add_one_le_of_lt positive))
    push_cast at floor
    linarith
  · have rounds := roundRat_neg_of_nonneg (neg_nonneg.mpr nonpos)
    rw [neg_neg] at rounds
    have floor : 0 ≤ ⌊-value + 1 / 2⌋ := Int.floor_nonneg.mpr (by linarith)
    have negative : -(⌊-value + 1 / 2⌋ : ℚ) ≤ 0 := neg_nonpos.mpr (by exact_mod_cast floor)
    exact absurd (positive.trans_eq rounds) (not_lt.mpr negative)

theorem roundRat_le_add_half (value : ℚ) : roundRat value ≤ value + 1 / 2 := by
  rcases le_total 0 value with nonneg | nonpos
  · rw [roundRat_of_nonneg nonneg]
    exact Int.floor_le _
  · have rounds := roundRat_neg_of_nonneg (neg_nonneg.mpr nonpos)
    rw [neg_neg] at rounds
    rw [rounds]
    have floor := Int.sub_one_lt_floor (-value + 1 / 2)
    linarith

theorem mantissa_lt (x : Float) : (Dyadic.ofFloat x).mantissa < 2 ^ 53 := by
  change (if x.toBits.toNat / 2 ^ 52 % 2 ^ 11 = 0 then x.toBits.toNat % 2 ^ 52
    else 2 ^ 52 + x.toBits.toNat % 2 ^ 52) < 2 ^ 53
  split <;> omega

theorem Dyadic.nearestWhole_lt {exact : Dyadic} (short : exact.mantissa < 2 ^ 53)
    (below : exact.exponent < 0) : exact.nearestWhole < 2 ^ 53 := by
  rcases exact with ⟨negative, mantissa, up | down⟩
  · exact absurd below (by simp)
  · change (mantissa + 2 ^ down) / 2 ^ (down + 1) < 2 ^ 53
    change mantissa < 2 ^ 53 at short
    rw [Nat.div_lt_iff_lt_mul (Nat.two_pow_pos _), pow_succ 2 down]
    have positive := Nat.two_pow_pos down
    omega

/-- A float without places below one is whole. -/
theorem roundRat_value_of_nonneg {exact : Dyadic} (nonneg : 0 ≤ exact.exponent) :
    roundRat exact.value = exact.value := by
  have whole : exact.nearestWhole = exact.wholePart := by
    rcases exact with ⟨negative, mantissa, up | down⟩
    · rfl
    · exact absurd nonneg (by simp)
  rw [roundRat_value, whole, Dyadic.wholePart_of_nonneg nonneg, Dyadic.value]

theorem round_exact (isFinite : x.isFinite = true) :
    (Whole.round x).isFinite = true ∧ exactValue (Whole.round x) = roundRat (exactValue x) := by
  unfold Whole.round Whole.isSmall
  by_cases below : (Dyadic.ofFloat x).exponent < 0
  · rw [if_pos (by simp [isFinite, below])]
    obtain ⟨signedFinite, same⟩ := signed_exact (Dyadic.ofFloat x).negative
      (Dyadic.nearestWhole_lt (mantissa_lt x) below)
    exact ⟨signedFinite, same.trans (roundRat_value _).symm⟩
  · rw [if_neg (by simp [below])]
    exact ⟨isFinite, (roundRat_value_of_nonneg (not_lt.mp below)).symm⟩

theorem round_of_not_isFinite (notFinite : x.isFinite = false) : Whole.round x = x := by
  unfold Whole.round Whole.isSmall
  rw [if_neg (by simp [notFinite])]

theorem isFinite_of_round (isFinite : (Whole.round x).isFinite = true) : x.isFinite = true := by
  unfold Whole.round at isFinite
  split at isFinite
  · next small => exact (Bool.and_eq_true_iff.mp small).1
  · exact isFinite

/-! ### Cutting down to a whole number -/

namespace Dyadic

/-- The magnitude consists of whole units and a rest that is none exactly when it is whole. -/
theorem exists_rest (exact : Dyadic) : ∃ rest : ℚ, 0 ≤ rest ∧ rest < 1 ∧
    (exact.mantissa : ℚ) * 2 ^ exact.exponent = exact.wholePart + rest ∧
    (exact.isWhole = true ↔ rest = 0) := by
  rcases exact with ⟨negative, mantissa, up | down⟩
  · refine ⟨0, le_refl 0, one_pos, ?_, iff_of_true rfl rfl⟩
    rw [wholePart_of_nonneg (Int.natCast_nonneg up), add_zero]
  · have unitPos : (0 : ℚ) < 2 ^ (down + 1) := pow_pos two_pos _
    have rest_lt := Nat.mod_lt mantissa (Nat.two_pow_pos (down + 1))
    refine ⟨(mantissa % 2 ^ (down + 1) : ℕ) / 2 ^ (down + 1), by positivity, ?_, ?_, ?_⟩
    · rw [div_lt_one unitPos]
      exact_mod_cast rest_lt
    · change (mantissa : ℚ) * 2 ^ (Int.negSucc down) = ((mantissa / 2 ^ (down + 1) : ℕ) : ℚ) + _
      have parts : (mantissa : ℚ) = (mantissa / 2 ^ (down + 1) : ℕ) * 2 ^ (down + 1) +
          (mantissa % 2 ^ (down + 1) : ℕ) := by
        exact_mod_cast (Nat.div_add_mod' mantissa (2 ^ (down + 1))).symm
      rw [zpow_negSucc, ← div_eq_mul_inv, div_eq_iff unitPos.ne', add_mul,
        div_mul_cancel₀ _ unitPos.ne']
      exact parts
    · rw [div_eq_zero_iff, or_iff_left unitPos.ne', Nat.cast_eq_zero]
      exact beq_iff_eq

theorem floor_magnitude (exact : Dyadic) :
    ⌊(exact.mantissa : ℚ) * 2 ^ exact.exponent⌋ = exact.wholePart := by
  obtain ⟨rest, nonneg, small, parts, _⟩ := exact.exists_rest
  rw [parts, Int.floor_eq_iff]
  push_cast
  constructor <;> linarith

/-- Below zero the next whole number lies farther out, unless the value is whole. -/
theorem floor_neg_magnitude (exact : Dyadic) :
    ⌊-((exact.mantissa : ℚ) * 2 ^ exact.exponent)⌋ =
      -((exact.wholePart + (!exact.isWhole).toNat : ℕ) : ℤ) := by
  obtain ⟨rest, nonneg, small, parts, whole⟩ := exact.exists_rest
  rw [parts, Int.floor_eq_iff]
  cases isWhole : exact.isWhole with
  | true =>
      rw [whole.mp isWhole]
      simp
  | false =>
      have positive : 0 < rest := nonneg.lt_of_ne fun none => by
        rw [whole.mpr none.symm] at isWhole
        cases isWhole
      push_cast
      simp only [Bool.not_false, Bool.toNat_true, Nat.cast_one]
      constructor <;> linarith

theorem floor_value (exact : Dyadic) :
    (⌊exact.value⌋ : ℚ) = (if exact.negative then -1 else 1) *
      ((exact.wholePart + (exact.negative && !exact.isWhole).toNat : ℕ) : ℚ) := by
  cases negative : exact.negative with
  | true =>
      rw [value_of_negative negative, floor_neg_magnitude]
      simp
  | false =>
      rw [value_of_not_negative negative, floor_magnitude]
      simp

theorem wholePart_lt {exact : Dyadic} (short : exact.mantissa < 2 ^ 53)
    (below : exact.exponent < 0) : exact.wholePart < 2 ^ 52 := by
  rcases exact with ⟨negative, mantissa, up | down⟩
  · exact absurd below (by simp)
  · change mantissa / 2 ^ (down + 1) < 2 ^ 52
    change mantissa < 2 ^ 53 at short
    rw [Nat.div_lt_iff_lt_mul (Nat.two_pow_pos _), pow_succ 2 down]
    have positive := Nat.two_pow_pos down
    omega

theorem floor_value_of_nonneg {exact : Dyadic} (nonneg : 0 ≤ exact.exponent) :
    (⌊exact.value⌋ : ℚ) = exact.value := by
  have whole : exact.isWhole = true := by
    rcases exact with ⟨negative, mantissa, up | down⟩
    · rfl
    · exact absurd nonneg (by simp)
  rw [floor_value, whole, Bool.not_true, Bool.and_false, Bool.toNat_false, add_zero,
    wholePart_of_nonneg nonneg, value]

end Dyadic

theorem floor_exact (isFinite : x.isFinite = true) :
    (Whole.floor x).isFinite = true ∧ exactValue (Whole.floor x) = ⌊exactValue x⌋ := by
  unfold Whole.floor Whole.isSmall
  by_cases below : (Dyadic.ofFloat x).exponent < 0
  · rw [if_pos (by simp [isFinite, below])]
    have small := Dyadic.wholePart_lt (mantissa_lt x) below
    have outward := Bool.toNat_le ((Dyadic.ofFloat x).negative && !(Dyadic.ofFloat x).isWhole)
    obtain ⟨signedFinite, same⟩ := signed_exact (Dyadic.ofFloat x).negative
      (n := (Dyadic.ofFloat x).wholePart +
        ((Dyadic.ofFloat x).negative && !(Dyadic.ofFloat x).isWhole).toNat) (by omega)
    exact ⟨signedFinite, same.trans (Dyadic.floor_value _).symm⟩
  · rw [if_neg (by simp [below])]
    exact ⟨isFinite, (Dyadic.floor_value_of_nonneg (not_lt.mp below)).symm⟩

theorem floor_of_not_isFinite (notFinite : ¬x.isFinite = true) : Whole.floor x = x := by
  unfold Whole.floor Whole.isSmall
  rw [if_neg (by simp [notFinite])]

theorem isFinite_of_floor (isFinite : (Whole.floor x).isFinite = true) : x.isFinite = true := by
  by_contra notFinite
  rw [floor_of_not_isFinite notFinite] at isFinite
  exact notFinite isFinite

theorem toNat_eq (nonneg : 0 ≤ exactValue x) : (Whole.toNat x : ℤ) = ⌊exactValue x⌋ := by
  change ((Dyadic.ofFloat x).wholePart : ℤ) = ⌊(Dyadic.ofFloat x).value⌋
  rw [← Dyadic.floor_magnitude]
  cases negative : (Dyadic.ofFloat x).negative with
  | true =>
      -- a negative zero is no less than zero, and nothing else that is negative
      have value := Dyadic.value_of_negative negative
      have magnitude := (Dyadic.ofFloat x).magnitude_nonneg
      have isZero := le_antisymm (neg_nonneg.mp (nonneg.trans_eq value)) magnitude
      rw [value, isZero, neg_zero]
  | false => rw [Dyadic.value_of_not_negative negative]

end TikzChart
