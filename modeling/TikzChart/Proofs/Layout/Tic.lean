import TikzChart.Proofs.Layout.Scale
import TikzChart.Proofs.Layout.TicCount

/-!
The tics that the vertical axis chooses by itself: nine of them, one step apart. The step is a tenth
of the range and of the room above it, rounded to hundredths; the positions are those of the
unrounded scale. So the last tic is below the top of the frame if rounding raises the step by less
than a ninth, and above it if rounding raises it by more.
-/

set_option autoImplicit false

namespace TikzChart

variable {scale : LinearScale Float} {height fraction : Float}

/-- A tenth of the range and of the room above it. -/
def unroundedStep (scale : LinearScale Float) (fraction : Float) : Float :=
  (scale.high - scale.low) / (Float.ofNat 10 * fraction)

def defaultStep (scale : LinearScale Float) (fraction : Float) : Float :=
  stepForCount scale defaultTicCount fraction

theorem defaultStep_eq : defaultStep scale fraction =
    Whole.round (unroundedStep scale fraction * Float.ofNat 100) / Float.ofNat 100 := rfl

/-! ### The step -/

section

variable (stepFinite : (defaultStep scale fraction).isFinite = true)

include stepFinite

theorem scaledStep_isFinite :
    (unroundedStep scale fraction * Float.ofNat 100).isFinite = true :=
  isFinite_of_round (isFinite_of_div (defaultStep_eq ▸ stepFinite))

theorem unroundedStep_isFinite : (unroundedStep scale fraction).isFinite = true :=
  (isFinite_of_mul (scaledStep_isFinite stepFinite)).1

theorem range_isFinite : (scale.high - scale.low).isFinite = true :=
  isFinite_of_div (unroundedStep_isFinite stepFinite)

theorem defaultStep_exact : exactValue (defaultStep scale fraction) =
    rounded (roundRat (exactValue (unroundedStep scale fraction * Float.ofNat 100)) / 100) := by
  obtain ⟨hundredFinite, isHundred⟩ := ofNat_exact (n := 100) (by norm_num)
  obtain ⟨roundFinite, isRound⟩ := round_exact (scaledStep_isFinite stepFinite)
  have quotient := isRounding_div roundFinite hundredFinite (by rw [isHundred]; norm_num)
  rw [isRound, isHundred] at quotient
  exact quotient.exactValue_eq stepFinite

theorem defaultStep_le : exactValue (defaultStep scale fraction) ≤ 2 ^ (1018 : ℤ) := by
  obtain ⟨roundFinite, isRound⟩ := round_exact (scaledStep_isFinite stepFinite)
  have small := (le_abs_self _).trans_lt (abs_exactValue_lt roundFinite)
  rw [isRound, show (1024 : ℤ) = 1018 + 6 by rfl, two_zpow_add] at small
  rw [defaultStep_exact stepFinite]
  refine rounded_le (onGrid_two_zpow (by norm_num)) ?_
  rw [div_le_iff₀ (by norm_num)]
  exact small.le.trans (mul_le_mul_of_nonneg_left (by norm_num) (two_zpow_pos _).le)

variable (stepPositive : 0 < exactValue (defaultStep scale fraction))

include stepPositive

theorem roundRat_scaledStep_pos :
    0 < roundRat (exactValue (unroundedStep scale fraction * Float.ofNat 100)) := by
  rw [defaultStep_exact stepFinite] at stepPositive
  by_contra nonpositive
  have below := div_nonpos_of_nonpos_of_nonneg (not_lt.mp nonpositive)
    (show (0 : ℚ) ≤ 100 by norm_num)
  exact absurd (rounded_le onGrid_zero below) (not_le.mpr stepPositive)

/-- A positive step is no smaller than a hundredth, or hardly. -/
theorem defaultStep_ge : 2 ^ (-7 : ℤ) ≤ exactValue (defaultStep scale fraction) := by
  have positive := roundRat_scaledStep_pos stepFinite stepPositive
  obtain ⟨whole, isWhole⟩ :=
    exists_roundRat_eq (exactValue (unroundedStep scale fraction * Float.ofNat 100))
  rw [defaultStep_exact stepFinite, isWhole]
  rw [isWhole, Int.cast_pos] at positive
  refine le_rounded (onGrid_two_zpow (by norm_num)) ?_
  have one : (1 : ℚ) ≤ whole := by exact_mod_cast positive
  norm_num
  linarith

theorem unroundedStep_gt : 2 ^ (-9 : ℤ) < exactValue (unroundedStep scale fraction) := by
  obtain ⟨hundredFinite, isHundred⟩ := ofNat_exact (n := 100) (by norm_num)
  have half := half_le_of_roundRat_pos (roundRat_scaledStep_pos stepFinite stepPositive)
  have scaled := (isRounding_mul (unroundedStep_isFinite stepFinite) hundredFinite).exactValue_eq
    (scaledStep_isFinite stepFinite)
  rw [scaled, isHundred] at half
  by_contra small
  have quarter : exactValue (unroundedStep scale fraction) * (100 : ℕ) ≤ 2 ^ (-2 : ℤ) := by
    norm_num at small ⊢
    linarith
  have below := half.trans (rounded_le (onGrid_two_zpow (by norm_num)) quarter)
  norm_num at below

end

/-! ### Roundings between the range and a position -/

theorem ten_fractions_exact (fractionFinite : fraction.isFinite = true)
    (nonneg : 0 ≤ exactValue fraction) (small : exactValue fraction ≤ 1) :
    (Float.ofNat 10 * fraction).isFinite = true ∧
      10 * exactValue fraction * (1 - 1 / 2 ^ 53) ≤ exactValue (Float.ofNat 10 * fraction) ∧
      exactValue (Float.ofNat 10 * fraction) ≤ 10 * exactValue fraction * (1 + 1 / 2 ^ 53) := by
  obtain ⟨tenFinite, isTen⟩ := ofNat_exact (n := 10) (by norm_num)
  have product := isRounding_mul tenFinite fractionFinite
  obtain ⟨whole, isMultiple⟩ := (onGrid_exactValue fractionFinite).exists_multiple
  have multiple : ((10 : ℕ) : ℚ) * exactValue fraction =
      ((10 * whole : ℤ) : ℚ) * 2 ^ (-1074 : ℤ) := by
    rw [isMultiple, Int.cast_mul, mul_assoc]
    rfl
  have near := abs_rounded_sub_le_of_multiple (10 * whole)
  rw [isTen] at product
  rw [← multiple, abs_of_nonneg (mul_nonneg (Nat.cast_nonneg _) nonneg)] at near
  have size : |((10 : ℕ) : ℚ) * exactValue fraction| ≤ ((10 : ℕ) : ℚ) := by
    rw [abs_of_nonneg (mul_nonneg (Nat.cast_nonneg _) nonneg)]
    exact mul_le_of_le_one_right (Nat.cast_nonneg _) small
  have productFinite := product.isFinite_of_le (onGrid_natCast (by norm_num))
    (natCast_lt_limit (by norm_num)) size
  obtain ⟨above, below⟩ := abs_le.mp near
  rw [product.exactValue_eq productFinite]
  push_cast at above below ⊢
  exact ⟨productFinite, by linarith, by linarith⟩

section

variable {rise step raw capacity width factor extent height fraction : ℚ}

/-- The roundings do not use up what is left of a ninth. -/
theorem rise_mul_factor_le (riseNonneg : 0 ≤ rise) (fractionNonneg : 0 ≤ fraction)
    (heightNonneg : 0 ≤ height) (rawNonneg : 0 ≤ raw) (widthPositive : 0 < width)
    (isRise : rise * (1 - 1 / 2 ^ 53) ≤ 9 * step)
    (isFactor : factor * (1 - 1 / 2 ^ 53) * width ≤ extent)
    (isExtent : extent * (1 - 1 / 2 ^ 53) ≤ height * fraction)
    (isRaw : raw * (1 - 1 / 2 ^ 53) * capacity ≤ width)
    (isCapacity : 10 * fraction * (1 - 1 / 2 ^ 53) ≤ capacity)
    (fits : 9 * step * (1 + 1 / 2 ^ 48) ≤ 10 * raw) : rise * factor ≤ height := by
  -- three roundings lie between the range and the rise, two between the height and the factor
  have room : rise * fraction * ((1 + 1 / 2 ^ 48) * (1 - 1 / 2 ^ 53) ^ 3) ≤ width := by
    have steps : rise * ((1 + 1 / 2 ^ 48) * (1 - 1 / 2 ^ 53)) ≤ 10 * raw := by linarith
    have scaled := mul_le_mul_of_nonneg_right steps
      (mul_nonneg fractionNonneg (show (0 : ℚ) ≤ (1 - 1 / 2 ^ 53) ^ 2 by norm_num))
    linarith [mul_le_mul_of_nonneg_left isCapacity rawNonneg]
  have product : rise * factor * width * (1 - 1 / 2 ^ 53) ^ 2 ≤ rise * (height * fraction) := by
    have whole : factor * width * (1 - 1 / 2 ^ 53) ^ 2 ≤ height * fraction := by linarith
    linarith [mul_le_mul_of_nonneg_left whole riseNonneg]
  have lost : (0 : ℚ) < width * ((1 + 1 / 2 ^ 48) * (1 - 1 / 2 ^ 53) ^ 5) :=
    mul_pos widthPositive (by norm_num)
  refine le_of_mul_le_mul_right ?_ lost
  calc
    _ = rise * factor * width * (1 - 1 / 2 ^ 53) ^ 2 *
        ((1 + 1 / 2 ^ 48) * (1 - 1 / 2 ^ 53) ^ 3) := by ring
    _ ≤ rise * (height * fraction) * ((1 + 1 / 2 ^ 48) * (1 - 1 / 2 ^ 53) ^ 3) :=
      mul_le_mul_of_nonneg_right product (by norm_num)
    _ = height * (rise * fraction * ((1 + 1 / 2 ^ 48) * (1 - 1 / 2 ^ 53) ^ 3)) := by ring
    _ ≤ height * width := mul_le_mul_of_nonneg_left room heightNonneg
    _ ≤ _ := by
      refine mul_le_mul_of_nonneg_left ?_ heightNonneg
      exact le_mul_of_one_le_right widthPositive.le (by norm_num)

/-- Nor do they make up for more than a ninth. -/
theorem height_le_rise_mul_factor (riseNonneg : 0 ≤ rise) (fractionNonneg : 0 ≤ fraction)
    (heightNonneg : 0 ≤ height) (rawNonneg : 0 ≤ raw) (widthPositive : 0 < width)
    (isRise : 9 * step ≤ rise * (1 + 1 / 2 ^ 53))
    (isFactor : extent ≤ factor * (1 + 1 / 2 ^ 53) * width)
    (isExtent : height * fraction ≤ extent * (1 + 1 / 2 ^ 53))
    (isRaw : width ≤ raw * (1 + 1 / 2 ^ 53) * capacity)
    (isCapacity : capacity ≤ 10 * fraction * (1 + 1 / 2 ^ 53))
    (exceeds : 10 * raw * (1 + 1 / 2 ^ 48) ≤ 9 * step) :
    height * (1 + 1 / 2 ^ 49) ≤ rise * factor := by
  have room : width * (1 + 1 / 2 ^ 48) ≤ rise * fraction * (1 + 1 / 2 ^ 53) ^ 3 := by
    have steps : 10 * raw * (1 + 1 / 2 ^ 48) ≤ rise * (1 + 1 / 2 ^ 53) := by linarith
    have scaled := mul_le_mul_of_nonneg_right steps
      (mul_nonneg fractionNonneg (show (0 : ℚ) ≤ (1 + 1 / 2 ^ 53) ^ 2 by norm_num))
    linarith [mul_le_mul_of_nonneg_left isCapacity rawNonneg]
  have product : rise * (height * fraction) ≤ rise * factor * width * (1 + 1 / 2 ^ 53) ^ 2 := by
    have whole : height * fraction ≤ factor * width * (1 + 1 / 2 ^ 53) ^ 2 := by linarith
    linarith [mul_le_mul_of_nonneg_left whole riseNonneg]
  have lost : (0 : ℚ) < width * (1 + 1 / 2 ^ 53) ^ 5 := mul_pos widthPositive (by norm_num)
  refine le_of_mul_le_mul_right ?_ lost
  calc
    _ = height * (width * ((1 + 1 / 2 ^ 49) * (1 + 1 / 2 ^ 53) ^ 5)) := by ring
    _ ≤ height * (width * (1 + 1 / 2 ^ 48)) := by
      refine mul_le_mul_of_nonneg_left ?_ heightNonneg
      exact mul_le_mul_of_nonneg_left (by norm_num) widthPositive.le
    _ ≤ height * (rise * fraction * (1 + 1 / 2 ^ 53) ^ 3) :=
      mul_le_mul_of_nonneg_left room heightNonneg
    _ = rise * (height * fraction) * (1 + 1 / 2 ^ 53) ^ 3 := by ring
    _ ≤ rise * factor * width * (1 + 1 / 2 ^ 53) ^ 2 * (1 + 1 / 2 ^ 53) ^ 3 :=
      mul_le_mul_of_nonneg_right product (by norm_num)
    _ = _ := by ring

end

/-! ### Positions -/

theorem deriveScale_factor {tree : NumericTree Float} {base top : Float}
    (derived : deriveScale tree base top height fraction = .ok scale) :
    scale.factor.isFinite = true ∧
      scale.factor = height * fraction / (scale.high - scale.low) := by
  obtain ⟨range, -, accepted⟩ := deriveScale_accepted derived
  rw [accepted.scale_eq]
  exact ⟨accepted.factorFinite, rfl⟩

/-- Tics are drawn, and on a frame that is not too small for all places of a number. -/
structure TicsDrawn (scale : LinearScale Float) (height fraction : Float) : Prop where
  stepFinite : (defaultStep scale fraction).isFinite = true
  stepPositive : 0 < exactValue (defaultStep scale fraction)
  factorFinite : scale.factor.isFinite = true
  factor_eq : scale.factor = height * fraction / (scale.high - scale.low)
  heightPositive : 0 < exactValue height
  fractionPositive : 0 < exactValue fraction
  fractionSmall : exactValue fraction ≤ 1
  extentNormal : 2 ^ (-1022 : ℤ) ≤ exactValue (height * fraction)
  factorNormal : 2 ^ (-1022 : ℤ) ≤ exactValue scale.factor

namespace TicsDrawn

variable (drawn : TicsDrawn scale height fraction)

include drawn

theorem quotientFinite : (height * fraction / (scale.high - scale.low)).isFinite = true :=
  drawn.factor_eq ▸ drawn.factorFinite

theorem extentFinite : (height * fraction).isFinite = true := isFinite_of_div drawn.quotientFinite

theorem heightFinite : height.isFinite = true := (isFinite_of_mul drawn.extentFinite).1

theorem fractionFinite : fraction.isFinite = true := (isFinite_of_mul drawn.extentFinite).2

theorem extent_eq :
    exactValue (height * fraction) = rounded (exactValue height * exactValue fraction) :=
  (isRounding_mul drawn.heightFinite drawn.fractionFinite).exactValue_eq drawn.extentFinite

theorem extent_close : exactValue (height * fraction) * (1 - 1 / 2 ^ 53) ≤
      exactValue height * exactValue fraction ∧
    exactValue height * exactValue fraction ≤
      exactValue (height * fraction) * (1 + 1 / 2 ^ 53) := by
  rw [drawn.extent_eq]
  exact close_rounded (drawn.extent_eq ▸ drawn.extentNormal)

theorem heightNormal : 2 ^ (-1022 : ℤ) ≤ exactValue height := by
  refine drawn.extentNormal.trans (drawn.extent_eq.trans_le ?_)
  exact rounded_le (onGrid_exactValue drawn.heightFinite)
    (mul_le_of_le_one_right drawn.heightPositive.le drawn.fractionSmall)

theorem capacity : (Float.ofNat 10 * fraction).isFinite = true ∧
    10 * exactValue fraction * (1 - 1 / 2 ^ 53) ≤ exactValue (Float.ofNat 10 * fraction) ∧
    exactValue (Float.ofNat 10 * fraction) ≤ 10 * exactValue fraction * (1 + 1 / 2 ^ 53) :=
  ten_fractions_exact drawn.fractionFinite drawn.fractionPositive.le drawn.fractionSmall

theorem capacity_pos : 0 < exactValue (Float.ofNat 10 * fraction) :=
  (mul_pos (mul_pos (by norm_num) drawn.fractionPositive) (by norm_num)).trans_le drawn.capacity.2.1

theorem unroundedStep_eq : exactValue (unroundedStep scale fraction) =
    rounded (exactValue (scale.high - scale.low) / exactValue (Float.ofNat 10 * fraction)) :=
  (isRounding_div (range_isFinite drawn.stepFinite) drawn.capacity.1
    drawn.capacity_pos.ne').exactValue_eq (unroundedStep_isFinite drawn.stepFinite)

theorem unroundedStep_normal : 2 ^ (-1022 : ℤ) ≤ exactValue (unroundedStep scale fraction) :=
  (two_zpow_le (by norm_num)).trans (unroundedStep_gt drawn.stepFinite drawn.stepPositive).le

theorem unroundedStep_close :
    exactValue (unroundedStep scale fraction) * (1 - 1 / 2 ^ 53) ≤
        exactValue (scale.high - scale.low) / exactValue (Float.ofNat 10 * fraction) ∧
      exactValue (scale.high - scale.low) / exactValue (Float.ofNat 10 * fraction) ≤
        exactValue (unroundedStep scale fraction) * (1 + 1 / 2 ^ 53) := by
  rw [drawn.unroundedStep_eq]
  exact close_rounded (drawn.unroundedStep_eq ▸ drawn.unroundedStep_normal)

theorem width_pos : 0 < exactValue (scale.high - scale.low) := by
  have unrounded := (two_zpow_pos _).trans_le drawn.unroundedStep_normal
  exact (div_pos_iff_of_pos_right drawn.capacity_pos).mp
    ((mul_pos unrounded (by norm_num)).trans_le drawn.unroundedStep_close.1)

theorem factor_eq_rounded : exactValue scale.factor =
    rounded (exactValue (height * fraction) / exactValue (scale.high - scale.low)) := by
  rw [drawn.factor_eq]
  exact (isRounding_div drawn.extentFinite (range_isFinite drawn.stepFinite)
    drawn.width_pos.ne').exactValue_eq drawn.quotientFinite

theorem factor_close : exactValue scale.factor * (1 - 1 / 2 ^ 53) ≤
      exactValue (height * fraction) / exactValue (scale.high - scale.low) ∧
    exactValue (height * fraction) / exactValue (scale.high - scale.low) ≤
      exactValue scale.factor * (1 + 1 / 2 ^ 53) := by
  rw [drawn.factor_eq_rounded]
  exact close_rounded (drawn.factor_eq_rounded ▸ drawn.factorNormal)

theorem rise_exact (index : ℕ) (positive : 1 ≤ index) (last : index ≤ 9) :
    (Float.ofNat index * defaultStep scale fraction).isFinite = true ∧
      exactValue (Float.ofNat index * defaultStep scale fraction) =
        rounded (index * exactValue (defaultStep scale fraction)) ∧
      2 ^ (-7 : ℤ) ≤ exactValue (Float.ofNat index * defaultStep scale fraction) := by
  obtain ⟨indexFinite, isIndex⟩ := ofNat_exact (n := index) (by omega)
  have product := isRounding_mul indexFinite drawn.stepFinite
  rw [isIndex] at product
  have low : 2 ^ (-7 : ℤ) ≤ (index : ℚ) * exactValue (defaultStep scale fraction) :=
    (defaultStep_ge drawn.stepFinite drawn.stepPositive).trans
      (le_mul_of_one_le_left drawn.stepPositive.le (by exact_mod_cast positive))
  have high : (index : ℚ) * exactValue (defaultStep scale fraction) ≤ 2 ^ (1022 : ℤ) := by
    rw [show (1022 : ℤ) = 4 + 1018 by rfl, two_zpow_add]
    have nine : (index : ℚ) ≤ 9 := by exact_mod_cast last
    exact mul_le_mul (nine.trans (by norm_num)) (defaultStep_le drawn.stepFinite)
      drawn.stepPositive.le (two_zpow_pos _).le
  have riseFinite := product.isFinite_of_le
    (onGrid_two_zpow (show (-1074 : ℤ) ≤ 1022 by norm_num))
    (zpow_lt_zpow_right₀ (by norm_num) (by norm_num))
    (by rwa [abs_of_pos ((two_zpow_pos _).trans_le low)])
  have isRise := product.exactValue_eq riseFinite
  exact ⟨riseFinite, isRise,
    (le_rounded (onGrid_two_zpow (by norm_num)) low).trans_eq isRise.symm⟩

theorem rise_close (index : ℕ) (positive : 1 ≤ index) (last : index ≤ 9) :
    exactValue (Float.ofNat index * defaultStep scale fraction) * (1 - 1 / 2 ^ 53) ≤
        index * exactValue (defaultStep scale fraction) ∧
      index * exactValue (defaultStep scale fraction) ≤
        exactValue (Float.ofNat index * defaultStep scale fraction) * (1 + 1 / 2 ^ 53) := by
  obtain ⟨-, isRise, low⟩ := drawn.rise_exact index positive last
  have normal := (two_zpow_le (show (-1022 : ℤ) ≤ -7 by norm_num)).trans low
  rw [isRise] at normal ⊢
  exact close_rounded normal

theorem isRounding_position (index : ℕ) (positive : 1 ≤ index) (last : index ≤ 9) :
    IsRounding (ticAt scale (defaultStep scale fraction) index).position
      (exactValue (Float.ofNat index * defaultStep scale fraction) * exactValue scale.factor) := by
  obtain ⟨distanceFinite, isDistance⟩ := sub_zero_exact (drawn.rise_exact index positive last).1
  rw [← isDistance]
  exact isRounding_mul distanceFinite drawn.factorFinite

/-- Every tic lies above the bottom of the frame and not above its top. -/
theorem position_inside (fits : 9 * exactValue (defaultStep scale fraction) * (1 + 1 / 2 ^ 48) ≤
      10 * exactValue (unroundedStep scale fraction))
    {index : ℕ} (positive : 1 ≤ index) (last : index ≤ 9) :
    (ticAt scale (defaultStep scale fraction) index).position.isFinite = true ∧
      0 < exactValue (ticAt scale (defaultStep scale fraction) index).position ∧
      exactValue (ticAt scale (defaultStep scale fraction) index).position ≤
        exactValue height := by
  obtain ⟨-, -, riseLow⟩ := drawn.rise_exact index positive last
  have product := drawn.isRounding_position index positive last
  have nineSteps : exactValue (Float.ofNat index * defaultStep scale fraction) *
      (1 - 1 / 2 ^ 53) ≤ 9 * exactValue (defaultStep scale fraction) :=
    (drawn.rise_close index positive last).1.trans
      (mul_le_mul_of_nonneg_right (by exact_mod_cast last) drawn.stepPositive.le)
  have le := rise_mul_factor_le ((two_zpow_pos _).le.trans riseLow) drawn.fractionPositive.le
    drawn.heightPositive.le ((two_zpow_pos _).le.trans drawn.unroundedStep_normal) drawn.width_pos
    nineSteps ((le_div_iff₀ drawn.width_pos).mp drawn.factor_close.1) drawn.extent_close.1
    ((le_div_iff₀ drawn.capacity_pos).mp drawn.unroundedStep_close.1) drawn.capacity.2.1 fits
  have ge : 2 ^ (-1029 : ℤ) ≤
      exactValue (Float.ofNat index * defaultStep scale fraction) * exactValue scale.factor := by
    rw [show (-1029 : ℤ) = -7 + -1022 by rfl, two_zpow_add]
    exact mul_le_mul riseLow drawn.factorNormal (two_zpow_pos _).le
      ((two_zpow_pos _).le.trans riseLow)
  have heightGrid := onGrid_exactValue drawn.heightFinite
  have positionFinite := product.isFinite_of_le heightGrid
    ((le_abs_self _).trans_lt (abs_exactValue_lt drawn.heightFinite))
    (by rwa [abs_of_pos ((two_zpow_pos _).trans_le ge)])
  refine ⟨positionFinite, ?_, ?_⟩
  · refine (two_zpow_pos (-1029)).trans_le ?_
    exact (le_rounded (onGrid_two_zpow (by norm_num)) ge).trans_eq
      (product.exactValue_eq positionFinite).symm
  · exact (product.exactValue_eq positionFinite).trans_le (rounded_le heightGrid le)

theorem last_position_above
    (exceeds : 10 * exactValue (unroundedStep scale fraction) * (1 + 1 / 2 ^ 48) ≤
      9 * exactValue (defaultStep scale fraction))
    (positionFinite : (ticAt scale (defaultStep scale fraction) 9).position.isFinite = true) :
    exactValue height < exactValue (ticAt scale (defaultStep scale fraction) 9).position := by
  obtain ⟨-, -, riseLow⟩ := drawn.rise_exact 9 (by norm_num) (le_refl 9)
  have position := (drawn.isRounding_position 9 (by norm_num) (le_refl 9)).exactValue_eq
    positionFinite
  have nineSteps := (drawn.rise_close 9 (by norm_num) (le_refl 9)).2
  have beyond := height_le_rise_mul_factor ((two_zpow_pos _).le.trans riseLow)
    drawn.fractionPositive.le drawn.heightPositive.le
    ((two_zpow_pos _).le.trans drawn.unroundedStep_normal) drawn.width_pos
    nineSteps ((div_le_iff₀ drawn.width_pos).mp drawn.factor_close.2) drawn.extent_close.2
    ((div_le_iff₀ drawn.capacity_pos).mp drawn.unroundedStep_close.2) drawn.capacity.2.2 exceeds
  have heightPositive := drawn.heightPositive
  have normal : 2 ^ (-1022 : ℤ) ≤ rounded
      (exactValue (Float.ofNat 9 * defaultStep scale fraction) * exactValue scale.factor) := by
    refine le_rounded (onGrid_two_zpow (by norm_num)) (drawn.heightNormal.trans (le_trans ?_ beyond))
    exact le_mul_of_one_le_right heightPositive.le (by norm_num)
  have close := (close_rounded normal).2
  rw [← position] at close
  have step : exactValue height * (1 + 1 / 2 ^ 49) ≤
      exactValue (ticAt scale (defaultStep scale fraction) 9).position * (1 + 1 / 2 ^ 53) :=
    beyond.trans close
  norm_num at step
  linarith

end TicsDrawn

/-- Rounding to hundredths raises the step by less than a ninth, if any tics are drawn. -/
def StepFits (scale : LinearScale Float) (fraction : Float) : Prop :=
  (defaultStep scale fraction).isFinite = true → 0 < exactValue (defaultStep scale fraction) →
    9 * exactValue (defaultStep scale fraction) * (1 + 1 / 2 ^ 48) ≤
      10 * exactValue (unroundedStep scale fraction)

/-- Tics are drawn, and rounding to hundredths raises their step by more than a ninth. -/
def StepExceeds (scale : LinearScale Float) (fraction : Float) : Prop :=
  (defaultStep scale fraction).isFinite = true ∧ 0 < exactValue (defaultStep scale fraction) ∧
    10 * exactValue (unroundedStep scale fraction) * (1 + 1 / 2 ^ 48) ≤
      9 * exactValue (defaultStep scale fraction)

/-- Half a hundredth is less than a ninth of such a step. -/
theorem stepFits_of_unroundedStep_ge
    (large : 23 / 500 ≤ exactValue (unroundedStep scale fraction)) : StepFits scale fraction := by
  intro stepFinite stepPositive
  obtain ⟨hundredFinite, isHundred⟩ := ofNat_exact (n := 100) (by norm_num)
  have isScaled := (isRounding_mul (unroundedStep_isFinite stepFinite) hundredFinite).exactValue_eq
    (scaledStep_isFinite stepFinite)
  rw [isHundred] at isScaled
  have isStep := defaultStep_exact stepFinite
  have stepNormal : 2 ^ (-1022 : ℤ) ≤ exactValue (defaultStep scale fraction) :=
    (two_zpow_le (by norm_num)).trans (defaultStep_ge stepFinite stepPositive)
  have scaledNormal : 2 ^ (-1022 : ℤ) ≤
      exactValue (unroundedStep scale fraction * Float.ofNat 100) := by
    rw [isScaled]
    refine le_rounded (onGrid_two_zpow (by norm_num)) ?_
    refine (two_zpow_le (show (-1022 : ℤ) ≤ 0 by norm_num)).trans ?_
    push_cast
    linarith
  rw [isStep] at stepNormal
  rw [isScaled] at scaledNormal
  have stepClose := (close_rounded stepNormal).1
  have scaledClose := (close_rounded scaledNormal).1
  rw [← isStep] at stepClose
  rw [← isScaled] at scaledClose
  have half := roundRat_le_add_half (exactValue (unroundedStep scale fraction * Float.ofNat 100))
  push_cast at scaledClose
  norm_num at stepClose scaledClose ⊢
  linarith

theorem zero_lt_iff {x : Float} (isFinite : x.isFinite = true) : 0 < x ↔ 0 < exactValue x := by
  obtain ⟨zeroFinite, isZero⟩ := ofNat_exact (n := 0) (by norm_num)
  have compared := lt_iff_exactValue_lt zeroFinite isFinite
  rwa [isZero, Nat.cast_zero] at compared

/-- Without a step that is positive and finite there are no tics. -/
theorem yTics_default_cases :
    yTics scale ⟨none, none⟩ height fraction = .ok [] ∧
        ((defaultStep scale fraction).isFinite = true →
          exactValue (defaultStep scale fraction) ≤ 0) ∨
      yTics scale ⟨none, none⟩ height fraction =
          .ok ((List.range' 1 9).map (ticAt scale (defaultStep scale fraction))) ∧
        (defaultStep scale fraction).isFinite = true ∧
        0 < exactValue (defaultStep scale fraction) := by
  have resolved : resolveTics scale ⟨none, none⟩ height fraction =
      .ok (defaultStep scale fraction, 10) := rfl
  rw [yTics_of_resolved resolved]
  by_cases drawn : 0 < defaultStep scale fraction ∧ (defaultStep scale fraction).isFinite = true
  · rw [if_pos drawn]
    exact .inr ⟨rfl, drawn.2, (zero_lt_iff drawn.2).mp drawn.1⟩
  · rw [if_neg drawn]
    refine .inl ⟨rfl, fun stepFinite => not_lt.mp fun positive => drawn ?_⟩
    exact ⟨(zero_lt_iff stepFinite).mpr positive, stepFinite⟩

/-- The tics that an axis chooses by itself lie inside the frame if rounding to hundredths raises
the step by less than a ninth; if it raises it by more, the last of them does not. -/
theorem default_tics_inside_frame {tree : NumericTree Float} {base top : Float}
    (derived : deriveScale tree base top height fraction = .ok scale)
    (heightPositive : 0 < height) (fractionPositive : 0 < fraction) (fractionSmall : fraction ≤ 1)
    (extentNormal : 2 ^ (-1022 : ℤ) ≤ exactValue (height * fraction))
    (factorNormal : 2 ^ (-1022 : ℤ) ≤ exactValue scale.factor) :
    ∃ marks, yTics scale ⟨none, none⟩ height fraction = .ok marks ∧
      (StepFits scale fraction → ∀ mark ∈ marks, 0 < mark.position ∧ mark.position ≤ height) ∧
      (StepExceeds scale fraction →
        ∃ mark ∈ marks, ¬(mark.position.isFinite = true ∧ mark.position ≤ height)) := by
  obtain ⟨factorFinite, isFactor⟩ := deriveScale_factor derived
  have quotientFinite := factorFinite
  rw [isFactor] at quotientFinite
  obtain ⟨heightFinite, fractionFinite⟩ := isFinite_of_mul (isFinite_of_div quotientFinite)
  obtain ⟨oneFinite, isOne⟩ := ofNat_exact (n := 1) (by norm_num)
  have small := (le_iff_exactValue_le fractionFinite oneFinite).mp fractionSmall
  rw [isOne, Nat.cast_one] at small
  rcases @yTics_default_cases scale height fraction with
    ⟨none, noStep⟩ | ⟨marks, stepFinite, stepPositive⟩
  · refine ⟨[], none, fun _ => by simp, ?_⟩
    intro exceeds
    exact absurd exceeds.2.1 (not_lt.mpr (noStep exceeds.1))
  · have drawn : TicsDrawn scale height fraction :=
      { stepFinite, stepPositive, factorFinite, factor_eq := isFactor
        heightPositive := (zero_lt_iff heightFinite).mp heightPositive
        fractionPositive := (zero_lt_iff fractionFinite).mp fractionPositive
        fractionSmall := small, extentNormal, factorNormal }
    refine ⟨_, marks, ?_, ?_⟩
    · intro fits mark inside
      obtain ⟨index, isIndex, rfl⟩ := List.mem_map.mp inside
      obtain ⟨first, last⟩ := List.mem_range'_1.mp isIndex
      obtain ⟨positionFinite, above, below⟩ :=
        drawn.position_inside (fits stepFinite stepPositive) first (by omega)
      exact ⟨(zero_lt_iff positionFinite).mpr above,
        (le_iff_exactValue_le positionFinite heightFinite).mpr below⟩
    · intro exceeds
      refine ⟨_, List.mem_map.mpr ⟨9, List.mem_range'_1.mpr (by omega), rfl⟩, ?_⟩
      rintro ⟨positionFinite, below⟩
      exact absurd ((le_iff_exactValue_le positionFinite heightFinite).mp below)
        (not_le.mpr (drawn.last_position_above exceeds.2.2 positionFinite))

/-- The range from zero to four over four fifths of a height of a hundred has tics at each half. -/
theorem tics_up_to_four_inside_frame :
    ∃ marks, yTics ⟨0, 4, 80 / (4 - 0), Float.ofNat 0⟩ ⟨none, none⟩ 100 (0.8 : Float) = .ok marks ∧
      ∀ mark ∈ marks, 0 < mark.position ∧ mark.position ≤ 100 := by
  have derived : deriveScale (.ofRows [[1, 4], [2]]) 0 3 100 (0.8 : Float) =
      .ok ⟨0, 4, 80 / (4 - 0), Float.ofNat 0⟩ := by decide +kernel
  have extent : (100 : Float) * 0.8 = Float.ofNat 80 := by decide +kernel
  have factor : (80 : Float) / (4 - 0) = Float.ofNat 20 := by decide +kernel
  have one : (2 : ℚ) ^ (-1022 : ℤ) ≤ 1 := zpow_le_one_of_nonpos₀ (by norm_num) (by norm_num)
  have extentNormal : 2 ^ (-1022 : ℤ) ≤ exactValue ((100 : Float) * 0.8) := by
    rw [extent, (ofNat_exact (by norm_num)).2]
    exact one.trans (by norm_num)
  have factorNormal : 2 ^ (-1022 : ℤ) ≤ exactValue ((80 : Float) / (4 - 0)) := by
    rw [factor, (ofNat_exact (by norm_num)).2]
    exact one.trans (by norm_num)
  have half : 23 / 500 ≤
      exactValue (unroundedStep (⟨0, 4, 80 / (4 - 0), Float.ofNat 0⟩ : LinearScale Float) 0.8) := by
    have raw : unroundedStep (⟨0, 4, 80 / (4 - 0), Float.ofNat 0⟩ : LinearScale Float) 0.8 =
        Float.ofBits 0x3FE0000000000000 := by decide +kernel
    have form : Dyadic.ofFloat (Float.ofBits 0x3FE0000000000000) = ⟨false, 2 ^ 52, -53⟩ := by
      decide +kernel
    rw [raw, exactValue, form, Dyadic.value]
    norm_num
  obtain ⟨marks, isMarks, inside, -⟩ := default_tics_inside_frame derived (by decide +kernel)
    (by decide +kernel) (by decide +kernel) extentNormal factorNormal
  exact ⟨marks, isMarks, inside (stepFits_of_unroundedStep_ge half)⟩

/-- The range from zero to a twentieth has tics at each hundredth, and the last of them lies almost
half the height above the frame. -/
theorem default_tics_above_frame :
    ∃ (scale : LinearScale Float) (marks : List (TicMark Float)),
      deriveScale (.ofRows [[0.05]]) 0 0 100 (0.8 : Float) = .ok scale ∧
      yTics scale ⟨none, none⟩ 100 (0.8 : Float) = .ok marks ∧
      ∃ mark ∈ marks, 100 < mark.position :=
  ⟨⟨0, 0.05, 80 / (0.05 - 0), Float.ofNat 0⟩,
    (List.range' 1 9).map (ticAt ⟨0, 0.05, 80 / (0.05 - 0), Float.ofNat 0⟩ 0.01),
    by decide +kernel, by decide +kernel, by decide +kernel⟩

end TikzChart
