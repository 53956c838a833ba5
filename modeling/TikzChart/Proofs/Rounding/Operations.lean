import TikzChart.Proofs.Rounding.Unpacked

/-!
Arithmetic on floats taken apart. An operation on two finite canonical numbers gives the rounded
exact result; what is not finite stays so.
-/

set_option autoImplicit false

namespace TikzChart.Unpacked

open Float.Model Float.Model.UnpackedFloat

variable {first second : UnpackedFloat}

/-! ### Sums, differences and products -/

theorem zero_rounds (sign : Sign) : Rounds (.zero sign) 0 :=
  ⟨rfl, trivial, rounded_zero.symm⟩

theorem aligned_eq (sign : Sign) (mantissa : ℕ) {exponent target : ℤ} (le : target ≤ exponent) :
    (sign.apply (decreaseExponent mantissa exponent target).1 : ℚ) * 2 ^ target =
      unit sign * (mantissa * 2 ^ exponent) := by
  obtain ⟨shifted, decreased, same⟩ := decreaseExponent_eq mantissa exponent target
  rw [min_eq_right le] at same
  rw [decreased, apply_cast, ← same, mul_assoc, Int.cast_natCast]

section

variable (firstFinite : first.isFinite = true) (secondFinite : second.isFinite = true)
  (firstCanonical : IsCanonical first) (secondCanonical : IsCanonical second)

include firstFinite secondFinite firstCanonical secondCanonical

theorem add_rounds :
    Rounds (UnpackedFloat.add Format.binary64 first second) (value first + value second) := by
  rcases finite_cases firstFinite with
    ⟨firstSign, rfl⟩ | ⟨firstSign, firstMantissa, firstExponent, firstPositive, rfl⟩
  · rcases finite_cases secondFinite with ⟨secondSign, rfl⟩ | ⟨sign, mantissa, exponent, pos, rfl⟩
    · rw [value_zero, value_zero, add_zero, UnpackedFloat.add]
      split <;> exact zero_rounds _
    · rw [value_zero, zero_add]
      exact rounds_self secondFinite secondCanonical
  · rcases finite_cases secondFinite with
      ⟨secondSign, rfl⟩ | ⟨secondSign, secondMantissa, secondExponent, secondPositive, rfl⟩
    · rw [value_zero, add_zero]
      exact rounds_self firstFinite firstCanonical
    · have sum := normalize_rounds
        (firstSign.apply (decreaseExponent firstMantissa firstExponent
            (min firstExponent secondExponent)).1 +
          secondSign.apply (decreaseExponent secondMantissa secondExponent
            (min firstExponent secondExponent)).1)
        (min firstExponent secondExponent) .positive
      rwa [Int.cast_add, add_mul, aligned_eq _ _ (min_le_left _ _),
        aligned_eq _ _ (min_le_right _ _)] at sum

theorem sub_rounds :
    Rounds (UnpackedFloat.sub Format.binary64 first second) (value first - value second) := by
  rcases finite_cases firstFinite with
    ⟨firstSign, rfl⟩ | ⟨firstSign, firstMantissa, firstExponent, firstPositive, rfl⟩
  · rcases finite_cases secondFinite with ⟨secondSign, rfl⟩ | ⟨sign, mantissa, exponent, pos, rfl⟩
    · rw [value_zero, value_zero, sub_zero, UnpackedFloat.sub]
      split <;> exact zero_rounds _
    · have self := @rounds_self (.finite (-sign) mantissa exponent pos) rfl secondCanonical
      rwa [value_finite, unit_neg, neg_mul, ← zero_sub] at self
  · rcases finite_cases secondFinite with
      ⟨secondSign, rfl⟩ | ⟨secondSign, secondMantissa, secondExponent, secondPositive, rfl⟩
    · rw [value_zero, sub_zero]
      exact rounds_self firstFinite firstCanonical
    · have difference := normalize_rounds
        (firstSign.apply (decreaseExponent firstMantissa firstExponent
            (min firstExponent secondExponent)).1 -
          secondSign.apply (decreaseExponent secondMantissa secondExponent
            (min firstExponent secondExponent)).1)
        (min firstExponent secondExponent) .positive
      rwa [Int.cast_sub, sub_mul, aligned_eq _ _ (min_le_left _ _),
        aligned_eq _ _ (min_le_right _ _)] at difference

theorem mul_rounds :
    Rounds (UnpackedFloat.mul Format.binary64 first second) (value first * value second) := by
  rcases finite_cases firstFinite with
    ⟨firstSign, rfl⟩ | ⟨firstSign, firstMantissa, firstExponent, firstPositive, rfl⟩
  · rw [value_zero, zero_mul]
    rcases finite_cases secondFinite with ⟨secondSign, rfl⟩ | ⟨sign, mantissa, exponent, pos, rfl⟩
    · exact zero_rounds _
    · exact zero_rounds _
  · rcases finite_cases secondFinite with
      ⟨secondSign, rfl⟩ | ⟨secondSign, secondMantissa, secondExponent, secondPositive, rfl⟩
    · rw [value_zero, mul_zero]
      exact zero_rounds _
    · have positive : 0 < firstMantissa * secondMantissa :=
        Nat.mul_pos firstPositive secondPositive
      have deep : firstExponent + secondExponent ≤ lastPlace
          ((firstMantissa * secondMantissa : ℕ) * 2 ^ (firstExponent + secondExponent)) := by
        rw [lastPlace, log_natCast positive]
        by_cases large : 2 ^ 52 ≤ firstMantissa * secondMantissa
        · have log := (Nat.le_log2 positive.ne').mpr large
          omega
        · -- both mantissas have lost places, so both exponents are the smallest one
          have firstSmall : ¬2 ^ 52 ≤ firstMantissa := fun fits =>
            large (fits.trans (Nat.le_mul_of_pos_right _ secondPositive))
          have secondSmall : ¬2 ^ 52 ≤ secondMantissa := fun fits =>
            large (fits.trans (Nat.le_mul_of_pos_left _ firstPositive))
          have firstLast := firstCanonical.full.resolve_left firstSmall
          have secondLast := secondCanonical.full.resolve_left secondSmall
          omega
      have product := roundWithAccuracy_rounds (firstSign * secondSign)
        (by exact_mod_cast positive) (.exact (firstMantissa * secondMantissa)) deep
      have same : unit (firstSign * secondSign) *
          ((firstMantissa * secondMantissa : ℕ) * 2 ^ (firstExponent + secondExponent)) =
          unit firstSign * (firstMantissa * 2 ^ firstExponent) *
            (unit secondSign * (secondMantissa * 2 ^ secondExponent)) := by
        rw [unit_mul, two_zpow_add]
        push_cast
        ring
      rwa [same] at product

end

/-! ### Division -/

section

variable {firstMantissa secondMantissa : ℕ} (firstPositive : 0 < firstMantissa)
  (secondPositive : 0 < secondMantissa) (firstExponent secondExponent : ℤ)

include firstPositive secondPositive

/-- A quotient is cut off no later than its last place. -/
theorem divCore_deep :
    Format.binary64.targetExponent
        (totalExponent firstMantissa firstExponent - totalExponent secondMantissa secondExponent) ≤
      lastPlace ((firstMantissa : ℚ) * 2 ^ firstExponent /
        (secondMantissa * 2 ^ secondExponent)) := by
  have log : (firstMantissa.log2 : ℤ) + firstExponent -
      (secondMantissa.log2 + secondExponent + 1) ≤
      Int.log 2 |(firstMantissa : ℚ) * 2 ^ firstExponent /
        (secondMantissa * 2 ^ secondExponent)| := by
    refine le_log_of_le_abs ?_
    have firstSize := le_abs_of_log (x := (firstMantissa : ℚ) * 2 ^ firstExponent)
      (magnitude_pos firstPositive _).ne'
    have secondSize := abs_lt_of_log (x := (secondMantissa : ℚ) * 2 ^ secondExponent)
      (Int.lt_succ _)
    rw [log_natCast firstPositive] at firstSize
    rw [log_natCast secondPositive] at secondSize
    have secondNonzero : 0 < |(secondMantissa : ℚ) * 2 ^ secondExponent| :=
      abs_pos.mpr (magnitude_pos secondPositive _).ne'
    rw [abs_div, le_div_iff₀ secondNonzero]
    calc
      _ ≤ (2 : ℚ) ^ ((firstMantissa.log2 : ℤ) + firstExponent -
            (secondMantissa.log2 + secondExponent + 1)) *
          2 ^ ((secondMantissa.log2 : ℤ) + secondExponent + 1) :=
        mul_le_mul_of_nonneg_left secondSize.le (two_zpow_pos _).le
      _ = 2 ^ ((firstMantissa.log2 : ℤ) + firstExponent) := by
        rw [← two_zpow_add, sub_add_cancel]
      _ ≤ _ := firstSize
  unfold lastPlace Format.targetExponent totalExponent
  rw [show (Format.binary64.mantissaBits : ℤ) = 53 by rfl,
    show Format.binary64.minExponent = -1074 by rfl]
  omega

omit firstPositive in
/-- The quotient and its accuracy stand for a fraction, which the exponent leads back to the exact
quotient. -/
theorem divCore_approximates :
    ∃ (mantissa : ℕ) (exponent : ℤ) (accuracy : Accuracy) (x : ℚ),
      divCore Format.binary64 firstMantissa firstExponent secondMantissa secondExponent =
        (mantissa, exponent, accuracy) ∧
      Approximates (.ofMantissaAndAccuracy mantissa accuracy) x ∧
      x * 2 ^ exponent =
        firstMantissa * 2 ^ firstExponent / (secondMantissa * 2 ^ secondExponent) ∧
      exponent ≤ Format.binary64.targetExponent
        (totalExponent firstMantissa firstExponent
          - totalExponent secondMantissa secondExponent) := by
  let target := min (firstExponent - secondExponent)
    (Format.binary64.targetExponent (totalExponent firstMantissa firstExponent -
      totalExponent secondMantissa secondExponent))
  let scaled := firstMantissa <<< (firstExponent - secondExponent - target).toNat
  have secondCast : (0 : ℚ) < secondMantissa := by exact_mod_cast secondPositive
  have fraction : ((scaled / secondMantissa : ℕ) : ℚ) +
      (scaled % secondMantissa : ℕ) / secondMantissa = scaled / secondMantissa := by
    rw [eq_div_iff secondCast.ne', add_mul, div_mul_cancel₀ _ secondCast.ne']
    exact_mod_cast Nat.div_add_mod' scaled secondMantissa
  have shifted : (scaled : ℚ) * 2 ^ target =
      firstMantissa * 2 ^ (firstExponent - secondExponent) := by
    have exponents : (firstExponent - secondExponent - target).toNat + target =
        firstExponent - secondExponent := by omega
    rw [← exponents, two_zpow_add, zpow_natCast]
    simp only [scaled, Nat.shiftLeft_eq]
    push_cast
    ring
  refine ⟨scaled / secondMantissa, target,
    accuracyOfFraction (scaled % secondMantissa) secondMantissa, scaled / secondMantissa, rfl, ?_, ?_,
    min_le_right _ _⟩
  · rw [← fraction]
    exact .quotient _ (Nat.mod_lt scaled secondPositive)
  · rw [div_mul_eq_mul_div, shifted, zpow_sub₀ (by norm_num)]
    field_simp

theorem div_finite_rounds (firstSign secondSign : Sign) :
    Rounds (UnpackedFloat.div Format.binary64
        (.finite firstSign firstMantissa firstExponent firstPositive)
        (.finite secondSign secondMantissa secondExponent secondPositive))
      (unit firstSign * (firstMantissa * 2 ^ firstExponent) /
        (unit secondSign * (secondMantissa * 2 ^ secondExponent))) := by
  obtain ⟨mantissa, exponent, accuracy, x, divided, stands, whole, shallow⟩ :=
    divCore_approximates secondPositive firstExponent secondExponent
  have positive : 0 < x := by
    have product : 0 < x * 2 ^ exponent := by
      rw [whole]
      exact div_pos (magnitude_pos firstPositive _) (magnitude_pos secondPositive _)
    exact (mul_pos_iff_of_pos_right (two_zpow_pos _)).mp product
  have deep : exponent ≤ lastPlace (x * 2 ^ exponent) := by
    rw [whole]
    exact shallow.trans (divCore_deep firstPositive secondPositive _ _)
  have quotient := roundWithAccuracy_rounds (firstSign / secondSign) positive stands deep
  rw [whole, unit_div, ← mul_div_mul_comm] at quotient
  unfold UnpackedFloat.div
  dsimp only
  rw [divided]
  exact quotient

end

theorem div_rounds (firstFinite : first.isFinite = true) (secondFinite : second.isFinite = true)
    (nonzero : value second ≠ 0) :
    Rounds (UnpackedFloat.div Format.binary64 first second) (value first / value second) := by
  rcases finite_cases secondFinite with
    ⟨secondSign, rfl⟩ | ⟨secondSign, secondMantissa, secondExponent, secondPositive, rfl⟩
  · exact absurd rfl nonzero
  rcases finite_cases firstFinite with
    ⟨firstSign, rfl⟩ | ⟨firstSign, firstMantissa, firstExponent, firstPositive, rfl⟩
  · rw [value_zero, zero_div]
    exact zero_rounds _
  · exact div_finite_rounds firstPositive secondPositive _ _ _ _

/-! ### Operands of finite results -/

theorem finite_of_add (isFinite : (UnpackedFloat.add Format.binary64 first second).isFinite = true) :
    first.isFinite = true ∧ second.isFinite = true := by
  cases first <;> cases second <;>
    first
    | exact ⟨rfl, rfl⟩
    | cases isFinite
    | skip
  -- two infinities
  next firstSign secondSign =>
    change UnpackedFloat.isFinite
      (if firstSign == secondSign then .infinity firstSign else .notANumber) = true at isFinite
    split at isFinite <;> cases isFinite

theorem finite_of_sub (isFinite : (UnpackedFloat.sub Format.binary64 first second).isFinite = true) :
    first.isFinite = true ∧ second.isFinite = true := by
  cases first <;> cases second <;>
    first
    | exact ⟨rfl, rfl⟩
    | cases isFinite
    | skip
  -- two infinities
  next firstSign secondSign =>
    change UnpackedFloat.isFinite
      (if firstSign == -secondSign then .infinity firstSign else .notANumber) = true at isFinite
    split at isFinite <;> cases isFinite

theorem finite_of_mul (isFinite : (UnpackedFloat.mul Format.binary64 first second).isFinite = true) :
    first.isFinite = true ∧ second.isFinite = true := by
  cases first <;> cases second <;>
    first
    | exact ⟨rfl, rfl⟩
    | cases isFinite

theorem finite_of_div (isFinite : (UnpackedFloat.div Format.binary64 first second).isFinite = true) :
    first.isFinite = true := by
  cases first <;> cases second <;>
    first
    | rfl
    | cases isFinite

theorem value_ne_zero_of_div
    (isFinite : (UnpackedFloat.div Format.binary64 first second).isFinite = true)
    (secondFinite : second.isFinite = true) : value second ≠ 0 := by
  rcases finite_cases secondFinite with ⟨sign, rfl⟩ | ⟨sign, mantissa, exponent, positive, rfl⟩
  · cases first <;> cases isFinite
  · rw [value_finite]
    exact mul_ne_zero (abs_pos.mp (by rw [abs_unit]; exact one_pos)) (magnitude_pos positive _).ne'

end TikzChart.Unpacked
