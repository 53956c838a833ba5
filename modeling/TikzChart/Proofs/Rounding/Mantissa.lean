import TikzChart.Proofs.Rounding.Grid

/-!
How a float is rounded in the end: a natural mantissa is shifted to the last place, two bits
remember what falls off, and they decide about the last place. `Approximates` says which numbers a
mantissa with its two bits stands for; shifting keeps it, so the result is the nearest even one of
the exact number (`roundWithAccuracy_rounds`).
-/

set_option autoImplicit false

namespace TikzChart

open Float.Model Float.Model.UnpackedFloat

/-! ### What falls off -/

/-- The mantissa and its two bits stand for the number. -/
def Approximates (extended : ExtendedMantissa) (x : ℚ) : Prop :=
  match extended with
  | ⟨mantissa, false, false⟩ => x = mantissa
  | ⟨mantissa, false, true⟩ => mantissa < x ∧ x < mantissa + 1 / 2
  | ⟨mantissa, true, false⟩ => x = mantissa + 1 / 2
  | ⟨mantissa, true, true⟩ => mantissa + 1 / 2 < x ∧ x < mantissa + 1

namespace Approximates

variable {extended : ExtendedMantissa} {x : ℚ}

theorem exact (mantissa : ℕ) :
    Approximates (.ofMantissaAndAccuracy mantissa .exact) mantissa := rfl

theorem quotient (mantissa : ℕ) {numerator denominator : ℕ} (proper : numerator < denominator) :
    Approximates (.ofMantissaAndAccuracy mantissa (accuracyOfFraction numerator denominator))
      (mantissa + numerator / denominator) := by
  have positive : (0 : ℚ) < denominator := by exact_mod_cast Nat.zero_lt_of_lt proper
  have below : (numerator : ℚ) / denominator < 1 := by
    rw [div_lt_one positive]
    exact_mod_cast proper
  unfold accuracyOfFraction
  by_cases zero : numerator = 0
  · rw [if_pos zero, zero, Nat.cast_zero, zero_div, add_zero]
    exact exact mantissa
  · have above : (0 : ℚ) < numerator / denominator :=
      div_pos (by exact_mod_cast Nat.pos_of_ne_zero zero) positive
    rw [if_neg zero]
    rcases lt_trichotomy (2 * numerator) denominator with less | same | greater
    · have half : (numerator : ℚ) / denominator < 1 / 2 := by
        rw [div_lt_div_iff₀ positive (by norm_num)]
        exact_mod_cast (by omega : numerator * 2 < 1 * denominator)
      rw [Nat.compare_eq_lt.mpr less]
      exact ⟨by linarith, by linarith⟩
    · have half : (numerator : ℚ) / denominator = 1 / 2 := by
        rw [div_eq_div_iff positive.ne' (by norm_num)]
        exact_mod_cast (by omega : numerator * 2 = 1 * denominator)
      rw [Nat.compare_eq_eq.mpr same, half]
      exact rfl
    · have half : 1 / 2 < (numerator : ℚ) / denominator := by
        rw [div_lt_div_iff₀ (by norm_num) positive]
        exact_mod_cast (by omega : 1 * denominator < numerator * 2)
      rw [Nat.compare_eq_gt.mpr greater]
      exact ⟨by linarith, by linarith⟩

theorem bounds (approximates : Approximates extended x) :
    extended.mantissa ≤ x ∧ x < extended.mantissa + 1 := by
  rcases extended with ⟨mantissa, roundBit, stickyBit⟩
  cases roundBit <;> cases stickyBit <;> simp only [Approximates] at approximates ⊢ <;>
    constructor <;> linarith

/-- A shift by one place halves the number; the bits remember what they have seen. -/
theorem shiftRightOne (approximates : Approximates extended x) :
    Approximates extended.shiftRightOne (x / 2) := by
  rcases extended with ⟨mantissa, roundBit, stickyBit⟩
  have whole : ((2 * (mantissa / 2) + mantissa % 2 : ℕ) : ℚ) = mantissa := by
    rw [Nat.div_add_mod]
  push_cast at whole
  rcases Nat.mod_two_eq_zero_or_one mantissa with even | odd
  · rw [even] at whole
    unfold ExtendedMantissa.shiftRightOne
    rw [even]
    cases roundBit <;> cases stickyBit <;> simp [Approximates] at approximates whole ⊢ <;>
      (try constructor) <;> linarith
  · rw [odd] at whole
    unfold ExtendedMantissa.shiftRightOne
    rw [odd]
    cases roundBit <;> cases stickyBit <;> simp [Approximates] at approximates whole ⊢ <;>
      (try constructor) <;> linarith

theorem shiftRight (approximates : Approximates extended x) (places : ℕ) :
    Approximates (extended >>> places) (x / 2 ^ places) := by
  change Approximates (places.repeat ExtendedMantissa.shiftRightOne extended) _
  induction places with
  | zero => simpa [Nat.repeat] using approximates
  | succ places ih =>
      have shifted := ih.shiftRightOne
      rwa [div_div, ← pow_succ] at shifted

/-- The two bits are all that rounding has to know. -/
theorem roundedMantissa_eq (approximates : Approximates extended x) :
    (extended.roundedMantissa : ℤ) = nearestEven x := by
  rcases extended with ⟨mantissa, roundBit, stickyBit⟩
  cases roundBit <;> cases stickyBit
  · have exact : x = ((mantissa : ℤ) : ℚ) := approximates
    rw [exact, nearestEven.intCast]
    rfl
  · rw [nearestEven.of_below_half (n := mantissa) (by exact_mod_cast approximates.1.le)
      (by exact_mod_cast approximates.2)]
    rfl
  · have half : x = ((mantissa : ℤ) : ℚ) + 1 / 2 := approximates
    rw [half, nearestEven.of_half]
    rfl
  · rw [nearestEven.of_above_half (n := mantissa) (by exact_mod_cast approximates.1)
      (by exact_mod_cast approximates.2)]
    rfl

end Approximates

end TikzChart
