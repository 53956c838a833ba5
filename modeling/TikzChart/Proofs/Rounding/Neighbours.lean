import TikzChart.Proofs.Rounding.FloatArithmetic

/-!
The numbers that round to one float. They lie within half a unit of its last place, and at both
ends of this range only when the mantissa is even; below a power of two the units are half as large
(`rounded_quarters`). What rounds to no float at all begins half a unit beyond the largest one
(`abs_rounded_lt_limit_iff`).
-/

set_option autoImplicit false

namespace TikzChart

/-- Only an even number is half a unit away from what was rounded to it. -/
theorem nearestEven.abs_sub_lt_of_odd {x : ℚ} (odd : nearestEven x % 2 = 1) :
    |(nearestEven x : ℚ) - x| < 1 / 2 := by
  rcases nearestEven.cases x with ⟨n, low, high, same⟩ | ⟨n, low, high, same⟩ | ⟨n, -, same⟩
  · rw [same, abs_lt]
    constructor <;> linarith
  · rw [same, abs_lt]
    push_cast
    constructor <;> linarith
  · omega

namespace Unpacked

/-- A number is written with 53 places in one way only. -/
theorem HasPlaces.unique {first second : ℕ} {firstExponent secondExponent : ℤ}
    (firstPlaces : HasPlaces first firstExponent) (secondPlaces : HasPlaces second secondExponent)
    (same : (first : ℚ) * 2 ^ firstExponent = second * 2 ^ secondExponent) :
    first = second ∧ firstExponent = secondExponent := by
  rcases lt_trichotomy firstExponent secondExponent with less | rfl | greater
  · exact absurd same (firstPlaces.lt_of_exponent_lt secondPlaces less).ne
  · have mantissas := mul_right_cancel₀ (two_zpow_pos firstExponent).ne' same
    exact ⟨by exact_mod_cast mantissas, rfl⟩
  · exact absurd same (secondPlaces.lt_of_exponent_lt firstPlaces greater).ne'

end Unpacked

open Unpacked

theorem hasPlaces_ofFloat (x : Float) :
    HasPlaces (Dyadic.ofFloat x).mantissa (Dyadic.ofFloat x).exponent := by
  unfold Dyadic.ofFloat
  dsimp only
  generalize x.toBits.toNat = bits
  change HasPlaces (if bits / 2 ^ 52 % 2 ^ 11 = 0 then bits % 2 ^ 52 else 2 ^ 52 + bits % 2 ^ 52)
    (if bits / 2 ^ 52 % 2 ^ 11 = 0 then -1074 else ((bits / 2 ^ 52 % 2 ^ 11 : ℕ) : ℤ) - 1075)
  split
  · exact ⟨by omega, by omega, .inr rfl⟩
  · exact ⟨by omega, by omega, .inl (by omega)⟩

/-! ### Around one float -/

/-- The distance to the numbers that round to the float before, in quarters of the last place. -/
def quartersBelow (mantissa : ℕ) (exponent : ℤ) : ℕ :=
  if mantissa = 2 ^ 52 ∧ -1074 < exponent then 1 else 2

/-- What rounds to a float lies between its neighbours, counted in quarters of its last place. -/
structure WithinQuarters (mantissa : ℕ) (exponent : ℤ) (quarters : ℚ) : Prop where
  low : 4 * mantissa - quartersBelow mantissa exponent ≤ quarters
  high : quarters ≤ 4 * mantissa + 2
  inside : mantissa % 2 = 1 →
    4 * mantissa - quartersBelow mantissa exponent < quarters ∧ quarters < 4 * mantissa + 2

section

variable {mantissa : ℕ} {exponent place : ℤ} {units : ℚ}

/-- Rounding that does not carry leaves the last place where it is. -/
theorem withinQuarters_of_same (nearest : nearestEven units = mantissa)
    (full : mantissa = 2 ^ 52 ∧ -1074 < exponent → 2 ^ 52 ≤ units) :
    WithinQuarters mantissa exponent (4 * units) := by
  have near := abs_le.mp (nearestEven.abs_sub_le units)
  rw [nearest, Int.cast_natCast] at near
  have below : 4 * (mantissa : ℚ) - quartersBelow mantissa exponent ≤ 4 * units := by
    unfold quartersBelow
    split
    · next isPower =>
        have above := full isPower
        rw [isPower.1]
        push_cast
        linarith
    · push_cast
      linarith
  refine ⟨below, by linarith, ?_⟩
  intro odd
  have notPower : ¬(mantissa = 2 ^ 52 ∧ -1074 < exponent) := by omega
  have nearer := abs_lt.mp (nearestEven.abs_sub_lt_of_odd (x := units) (by omega))
  rw [nearest, Int.cast_natCast] at nearer
  rw [quartersBelow, if_neg notPower]
  push_cast
  constructor <;> linarith

/-- A carry ends at a power of two, from below. -/
theorem withinQuarters_of_carry (nearest : nearestEven units = 2 ^ 53) (below : units < 2 ^ 53)
    (inner : -1074 < exponent) : WithinQuarters (2 ^ 52) exponent (2 * units) := by
  have near := abs_le.mp (nearestEven.abs_sub_le units)
  rw [nearest] at near
  push_cast at near
  refine ⟨?_, ?_, fun odd => absurd odd (by norm_num)⟩
  · rw [quartersBelow, if_pos ⟨rfl, inner⟩]
    push_cast
    linarith
  · push_cast
    linarith

end

section

variable {x : ℚ}

theorem pos_of_rounded_pos (positive : 0 < rounded x) : 0 < x := by
  by_contra nonpos
  have negated := rounded_nonneg (neg_nonneg.mpr (not_lt.mp nonpos))
  rw [rounded_neg] at negated
  linarith

theorem units_lt (positive : 0 < x) : x / 2 ^ lastPlace x < 2 ^ 53 := by
  have below := abs_div_lastPlace_lt x
  rw [abs_of_pos (div_pos positive (two_zpow_pos _))] at below
  exact_mod_cast below

theorem le_units (positive : 0 < x) (inner : -1074 < lastPlace x) :
    2 ^ 52 ≤ x / 2 ^ lastPlace x := by
  have full := le_abs_div_lastPlace positive.ne' inner
  rw [abs_of_pos (div_pos positive (two_zpow_pos _))] at full
  exact_mod_cast full

/-- The rounded number of units has all its places, and perhaps carries into the next one. -/
theorem exists_nearest (positive : 0 < x) :
    ∃ whole : ℕ, nearestEven (x / 2 ^ lastPlace x) = whole ∧ whole ≤ 2 ^ 53 ∧
      (-1074 < lastPlace x → 2 ^ 52 ≤ whole) := by
  have nonneg : 0 ≤ nearestEven (x / 2 ^ lastPlace x) :=
    nearestEven.intCast_le (by simpa using (div_pos positive (two_zpow_pos _)).le)
  have most : nearestEven (x / 2 ^ lastPlace x) ≤ 2 ^ 53 :=
    nearestEven.le_intCast (by push_cast; exact (units_lt positive).le)
  refine ⟨(nearestEven (x / 2 ^ lastPlace x)).toNat, by omega, by omega, fun inner => ?_⟩
  have full : 2 ^ 52 ≤ nearestEven (x / 2 ^ lastPlace x) :=
    nearestEven.intCast_le (by push_cast; exact le_units positive inner)
  omega

end

theorem rounded_quarters {mantissa : ℕ} {exponent : ℤ} (places : HasPlaces mantissa exponent)
    (positive : 0 < mantissa) {x : ℚ} (same : rounded x = mantissa * 2 ^ exponent) :
    WithinQuarters mantissa exponent (x / 2 ^ (exponent - 2)) := by
  have xPos : 0 < x := pos_of_rounded_pos (same ▸ magnitude_pos positive exponent)
  have last := lastPlace_ge x
  obtain ⟨whole, isNearest, nearestLe, nearestFull⟩ := exists_nearest xPos
  have isRounded : rounded x = whole * 2 ^ lastPlace x := by
    rw [rounded, isNearest, Int.cast_natCast]
  rw [isRounded] at same
  rcases nearestLe.lt_or_eq with short | carry
  · have ownPlaces : HasPlaces whole (lastPlace x) := by
      refine ⟨short, last, ?_⟩
      rcases last.eq_or_lt with isLast | inner
      · exact .inr isLast.symm
      · exact .inl (nearestFull inner)
    obtain ⟨rfl, rfl⟩ := ownPlaces.unique places same
    have scaled : x / 2 ^ (lastPlace x - 2) = 4 * (x / 2 ^ lastPlace x) := by
      rw [zpow_sub₀ two_ne_zero]
      norm_num
      ring
    rw [scaled]
    exact withinQuarters_of_same isNearest fun isPower => le_units xPos isPower.2
  · have ownPlaces : HasPlaces (2 ^ 52) (lastPlace x + 1) :=
      ⟨by norm_num, by omega, .inl (le_refl _)⟩
    have doubled : ((2 ^ 52 : ℕ) : ℚ) * 2 ^ (lastPlace x + 1) = mantissa * 2 ^ exponent := by
      rw [← same, carry, two_zpow_add]
      push_cast
      ring
    obtain ⟨rfl, rfl⟩ := ownPlaces.unique places doubled
    have scaled : x / 2 ^ (lastPlace x + 1 - 2) = 2 * (x / 2 ^ lastPlace x) := by
      rw [show lastPlace x + 1 - 2 = lastPlace x - 1 by ring, zpow_sub₀ two_ne_zero]
      norm_num
      ring
    rw [scaled]
    exact withinQuarters_of_carry (by rw [isNearest, carry]; rfl) (units_lt xPos) (by omega)

/-! ### Beyond the largest float -/

theorem lastPlace_of_bounds {x : ℚ} {place : ℤ} (inside : -1074 ≤ place)
    (low : 2 ^ (place + 52) ≤ |x|) (high : |x| < 2 ^ (place + 53)) : lastPlace x = place := by
  have nonzero : x ≠ 0 := abs_pos.mp ((two_zpow_pos _).trans_le low)
  have atLeast := le_log_of_le_abs low
  have below := log_lt_of_abs_lt nonzero high
  unfold lastPlace
  omega

/-- Half a unit beyond the largest float. -/
def overflowBound : ℚ := (2 ^ 54 - 1) * 2 ^ (970 : ℤ)

theorem overflowBound_eq : overflowBound = ((2 ^ 53 - 1 : ℤ) + 1 / 2 : ℚ) * 2 ^ (971 : ℤ) := by
  unfold overflowBound
  rw [show (971 : ℤ) = 970 + 1 by rfl, two_zpow_add]
  generalize (2 : ℚ) ^ (970 : ℤ) = place
  push_cast
  ring

theorem le_overflowBound : 2 ^ (1023 : ℤ) ≤ overflowBound := by
  rw [overflowBound_eq, show (1023 : ℤ) = 52 + 971 by rfl, two_zpow_add]
  exact mul_le_mul_of_nonneg_right (by norm_num) (two_zpow_pos _).le

theorem overflowBound_lt : overflowBound < 2 ^ (1024 : ℤ) := by
  rw [overflowBound_eq, show (1024 : ℤ) = 53 + 971 by rfl, two_zpow_add]
  exact mul_lt_mul_of_pos_right (by norm_num) (two_zpow_pos _)

section

variable {size : ℚ} (nonneg : 0 ≤ size)

include nonneg

theorem lastPlace_of_top (low : 2 ^ (1023 : ℤ) ≤ size) (high : size < 2 ^ (1024 : ℤ)) :
    lastPlace size = 971 := by
  rw [show (1023 : ℤ) = 971 + 52 by norm_num] at low
  rw [show (1024 : ℤ) = 971 + 53 by norm_num] at high
  rw [← abs_of_nonneg nonneg] at low high
  exact lastPlace_of_bounds (by norm_num) low high

theorem rounded_lt_limit (small : size < overflowBound) : rounded size < 2 ^ (1024 : ℤ) := by
  rcases lt_or_ge size (2 ^ (1023 : ℤ)) with low | high
  · exact (rounded_le (onGrid_two_zpow (by norm_num)) low.le).trans_lt
      (zpow_lt_zpow_right₀ (by norm_num) (by norm_num))
  · have units : size / 2 ^ (971 : ℤ) < (2 ^ 53 - 1 : ℤ) + 1 / 2 :=
      (div_lt_iff₀ (two_zpow_pos _)).mpr (overflowBound_eq ▸ small)
    have fewer : (nearestEven (size / 2 ^ (971 : ℤ)) : ℚ) < 2 ^ (53 : ℤ) := by
      have near := abs_le.mp (nearestEven.abs_sub_le (size / 2 ^ (971 : ℤ)))
      generalize size / 2 ^ (971 : ℤ) = quotient at units near ⊢
      push_cast at units
      norm_num at units ⊢
      linarith
    rw [rounded, lastPlace_of_top nonneg high (small.trans overflowBound_lt),
      show (1024 : ℤ) = 53 + 971 by rfl, two_zpow_add]
    exact mul_lt_mul_of_pos_right fewer (two_zpow_pos _)

/-- Half a unit beyond the largest float goes up, since the largest mantissa is odd. -/
theorem limit_le_rounded (beyond : overflowBound ≤ size) : 2 ^ (1024 : ℤ) ≤ rounded size := by
  rcases lt_or_ge size (2 ^ (1024 : ℤ)) with inside | outside
  · have halfUp := nearestEven.of_half (2 ^ 53 - 1)
    have mono := nearestEven.mono ((le_div_iff₀ (two_zpow_pos _)).mpr (overflowBound_eq ▸ beyond))
    rw [halfUp] at mono
    have carried : (2 : ℚ) ^ (53 : ℤ) ≤ nearestEven (size / 2 ^ (971 : ℤ)) := by
      exact_mod_cast (show (2 ^ 53 : ℤ) ≤ _ from mono)
    rw [rounded, lastPlace_of_top nonneg (le_overflowBound.trans beyond) inside,
      show (1024 : ℤ) = 53 + 971 by rfl, two_zpow_add]
    exact mul_le_mul_of_nonneg_right carried (two_zpow_pos _).le
  · exact le_rounded (onGrid_two_zpow (by norm_num)) outside

end

theorem abs_rounded_lt_limit_iff (x : ℚ) : |rounded x| < 2 ^ (1024 : ℤ) ↔ |x| < overflowBound := by
  rw [abs_rounded]
  refine ⟨fun small => ?_, rounded_lt_limit (abs_nonneg x)⟩
  by_contra beyond
  exact absurd (limit_le_rounded (abs_nonneg x) (not_lt.mp beyond)) (not_le.mpr small)

end TikzChart
