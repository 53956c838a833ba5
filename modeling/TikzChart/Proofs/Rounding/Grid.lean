import Mathlib.Data.Int.Log
import Mathlib.Data.Rat.Floor
import Mathlib.Tactic.FieldSimp
import Mathlib.Tactic.Positivity
import Mathlib.Tactic.Ring
import TikzChart.Proofs.Rounding.NearestEven

/-!
The numbers that 53 binary places can express, with no place below `2 ^ -1074`. `lastPlace` is the
exponent of the last of the places for numbers of one size, and `rounded` goes to the nearest
multiple of that place. There is no largest number here: what is too large for a float is decided
after rounding.
-/

set_option autoImplicit false

namespace TikzChart

/-- The exponent of the last of 53 places, the first of which is the first place of the number. -/
def lastPlace (x : ℚ) : ℤ := max (Int.log 2 |x| - 52) (-1074)

/-- The nearest number that 53 places can express. -/
def rounded (x : ℚ) : ℚ := nearestEven (x / 2 ^ lastPlace x) * 2 ^ lastPlace x

/-- A number that 53 places can express. -/
def OnGrid (x : ℚ) : Prop :=
  ∃ (mantissa : ℤ) (exponent : ℤ), |mantissa| < 2 ^ 53 ∧ -1074 ≤ exponent ∧
    x = mantissa * 2 ^ exponent

theorem two_zpow_pos (exponent : ℤ) : (0 : ℚ) < 2 ^ exponent := zpow_pos (by norm_num) exponent

theorem two_zpow_le {low high : ℤ} (le : low ≤ high) : (2 : ℚ) ^ low ≤ 2 ^ high :=
  zpow_le_zpow_right₀ (by norm_num) le

theorem two_zpow_add (first second : ℤ) : (2 : ℚ) ^ (first + second) = 2 ^ first * 2 ^ second :=
  zpow_add₀ (by norm_num) first second

theorem exists_two_zpow_eq {low high : ℤ} (le : low ≤ high) :
    ∃ whole : ℤ, (2 : ℚ) ^ high = whole * 2 ^ low := by
  refine ⟨2 ^ (high - low).toNat, ?_⟩
  have exponents : high = (high - low).toNat + low := by omega
  conv_lhs => rw [exponents, two_zpow_add, zpow_natCast]
  push_cast
  rfl

/-! ### The size of a number -/

theorem abs_lt_of_log {x : ℚ} {exponent : ℤ} (log : Int.log 2 |x| < exponent) :
    |x| < 2 ^ exponent := by
  have below : |x| < (2 : ℕ) ^ (Int.log 2 |x| + 1) := Int.lt_zpow_succ_log_self (by norm_num) _
  refine below.trans_le ?_
  exact_mod_cast two_zpow_le (by omega)

theorem le_abs_of_log {x : ℚ} (nonzero : x ≠ 0) : (2 : ℚ) ^ Int.log 2 |x| ≤ |x| := by
  exact_mod_cast Int.zpow_log_le_self (b := 2) (by norm_num) (abs_pos.mpr nonzero)

theorem log_lt_of_abs_lt {x : ℚ} {exponent : ℤ} (nonzero : x ≠ 0) (small : |x| < 2 ^ exponent) :
    Int.log 2 |x| < exponent := by
  have low := (le_abs_of_log nonzero).trans_lt small
  exact (zpow_lt_zpow_iff_right₀ (by norm_num)).mp low

theorem le_log_of_le_abs {x : ℚ} {exponent : ℤ} (large : 2 ^ exponent ≤ |x|) :
    exponent ≤ Int.log 2 |x| := by
  by_contra small
  exact absurd large (not_le.mpr (abs_lt_of_log (by omega)))

theorem lastPlace_ge (x : ℚ) : -1074 ≤ lastPlace x := le_max_right _ _

theorem lastPlace_neg (x : ℚ) : lastPlace (-x) = lastPlace x := by
  rw [lastPlace, lastPlace, abs_neg]

/-- In units of its last place a number has 53 places at most. -/
theorem abs_div_lastPlace_lt (x : ℚ) : |x / 2 ^ lastPlace x| < 2 ^ (53 : ℤ) := by
  rw [abs_div, abs_of_pos (two_zpow_pos _), div_lt_iff₀ (two_zpow_pos _), ← two_zpow_add]
  have logs : Int.log 2 |x| - 52 ≤ lastPlace x := le_max_left _ _
  exact abs_lt_of_log (by omega)

/-- It has all of them unless its last place is the last place of all. -/
theorem le_abs_div_lastPlace {x : ℚ} (nonzero : x ≠ 0) (inner : -1074 < lastPlace x) :
    2 ^ (52 : ℤ) ≤ |x / 2 ^ lastPlace x| := by
  have place : lastPlace x = Int.log 2 |x| - 52 := by
    unfold lastPlace at inner ⊢
    omega
  rw [abs_div, abs_of_pos (two_zpow_pos _), le_div_iff₀ (two_zpow_pos _), ← two_zpow_add, place]
  have size := le_abs_of_log nonzero
  rwa [show (52 : ℤ) + (Int.log 2 |x| - 52) = Int.log 2 |x| by omega]

/-! ### Rounding -/

theorem rounded_zero : rounded 0 = 0 := by
  rw [rounded, zero_div, nearestEven.zero, Int.cast_zero, zero_mul]

theorem rounded_neg (x : ℚ) : rounded (-x) = -rounded x := by
  rw [rounded, lastPlace_neg, neg_div, nearestEven.neg, Int.cast_neg, neg_mul, rounded]

theorem rounded_le_of_multiple {x : ℚ} {whole : ℤ} (le : x ≤ whole * 2 ^ lastPlace x) :
    rounded x ≤ whole * 2 ^ lastPlace x := by
  have units : x / 2 ^ lastPlace x ≤ whole := (div_le_iff₀ (two_zpow_pos _)).mpr le
  refine mul_le_mul_of_nonneg_right ?_ (two_zpow_pos _).le
  exact_mod_cast nearestEven.le_intCast units

theorem le_rounded_of_multiple {x : ℚ} {whole : ℤ} (le : whole * 2 ^ lastPlace x ≤ x) :
    whole * 2 ^ lastPlace x ≤ rounded x := by
  have units : (whole : ℚ) ≤ x / 2 ^ lastPlace x := (le_div_iff₀ (two_zpow_pos _)).mpr le
  refine mul_le_mul_of_nonneg_right ?_ (two_zpow_pos _).le
  exact_mod_cast nearestEven.intCast_le units

theorem rounded_nonneg {x : ℚ} (nonneg : 0 ≤ x) : 0 ≤ rounded x := by
  simpa using @le_rounded_of_multiple x 0 (by simpa using nonneg)

theorem lastPlace_mono {x y : ℚ} (nonzero : x ≠ 0) (le : |x| ≤ |y|) :
    lastPlace x ≤ lastPlace y := by
  have logs : Int.log 2 |x| ≤ Int.log 2 |y| := Int.log_mono_right (abs_pos.mpr nonzero) le
  unfold lastPlace
  omega

theorem rounded_mono_of_nonneg {x y : ℚ} (nonneg : 0 ≤ x) (le : x ≤ y) :
    rounded x ≤ rounded y := by
  rcases nonneg.eq_or_lt with rfl | positive
  · rw [rounded_zero]
    exact rounded_nonneg le
  have sizes : |x| ≤ |y| := by rwa [abs_of_pos positive, abs_of_pos (positive.trans_le le)]
  rcases (lastPlace_mono positive.ne' sizes).eq_or_lt with same | less
  · rw [rounded, rounded, same]
    refine mul_le_mul_of_nonneg_right ?_ (two_zpow_pos _).le
    exact_mod_cast nearestEven.mono (div_le_div_of_nonneg_right le (two_zpow_pos _).le)
  · -- between the two numbers lies a power of two that neither of them passes
    have inner : -1074 < lastPlace y := (lastPlace_ge x).trans_lt less
    have below : x ≤ 2 ^ (lastPlace x + 53) := by
      have units := abs_div_lastPlace_lt x
      rw [abs_div, abs_of_pos (two_zpow_pos _), div_lt_iff₀ (two_zpow_pos _), ← two_zpow_add,
        abs_of_pos positive, add_comm] at units
      exact units.le
    have above : 2 ^ (lastPlace y + 52) ≤ y := by
      have units := le_abs_div_lastPlace (positive.trans_le le).ne' inner
      rwa [abs_div, abs_of_pos (two_zpow_pos _), le_div_iff₀ (two_zpow_pos _), ← two_zpow_add,
        abs_of_pos (positive.trans_le le), add_comm] at units
    obtain ⟨first, isFirst⟩ := exists_two_zpow_eq (show lastPlace x ≤ lastPlace x + 53 by omega)
    obtain ⟨second, isSecond⟩ := exists_two_zpow_eq (show lastPlace y ≤ lastPlace y + 52 by omega)
    calc
      rounded x ≤ 2 ^ (lastPlace x + 53) := by
        rw [isFirst] at below ⊢
        exact rounded_le_of_multiple below
      _ ≤ 2 ^ (lastPlace y + 52) := two_zpow_le (by omega)
      _ ≤ rounded y := by
        rw [isSecond] at above ⊢
        exact le_rounded_of_multiple above

theorem rounded_mono {x y : ℚ} (le : x ≤ y) : rounded x ≤ rounded y := by
  rcases le_total 0 x with nonneg | nonpos
  · exact rounded_mono_of_nonneg nonneg le
  · have negated := rounded_nonneg (neg_nonneg.mpr nonpos)
    rw [rounded_neg] at negated
    rcases le_total 0 y with nonneg | negative
    · exact (neg_nonneg.mp negated).trans (rounded_nonneg nonneg)
    · have flipped := rounded_mono_of_nonneg (neg_nonneg.mpr negative) (neg_le_neg le)
      rw [rounded_neg, rounded_neg] at flipped
      exact neg_le_neg_iff.mp flipped

theorem abs_rounded (x : ℚ) : |rounded x| = rounded |x| := by
  rcases le_total 0 x with nonneg | nonpos
  · rw [abs_of_nonneg nonneg, abs_of_nonneg (rounded_nonneg nonneg)]
  · have negated := rounded_nonneg (neg_nonneg.mpr nonpos)
    rw [abs_of_nonpos nonpos, rounded_neg]
    rw [rounded_neg] at negated
    exact abs_of_nonpos (neg_nonneg.mp negated)

/-! ### Numbers on the grid -/

theorem onGrid_zero : OnGrid 0 := ⟨0, 0, by norm_num, by norm_num, by norm_num⟩

theorem OnGrid.neg {x : ℚ} (onGrid : OnGrid x) : OnGrid (-x) := by
  obtain ⟨mantissa, exponent, places, inside, rfl⟩ := onGrid
  exact ⟨-mantissa, exponent, by rwa [abs_neg], inside, by push_cast; ring⟩

theorem onGrid_two_zpow {exponent : ℤ} (inside : -1074 ≤ exponent) : OnGrid (2 ^ exponent) :=
  ⟨1, exponent, by norm_num, inside, by norm_num⟩

theorem onGrid_intCast {whole : ℤ} (small : |whole| < 2 ^ 53) : OnGrid whole :=
  ⟨whole, 0, small, by norm_num, by norm_num⟩

theorem OnGrid.exists_multiple {x : ℚ} (onGrid : OnGrid x) :
    ∃ whole : ℤ, x = whole * 2 ^ (-1074 : ℤ) := by
  obtain ⟨mantissa, exponent, -, inside, rfl⟩ := onGrid
  obtain ⟨whole, isWhole⟩ := exists_two_zpow_eq inside
  exact ⟨mantissa * whole, by rw [isWhole, Int.cast_mul, mul_assoc]⟩

theorem OnGrid.rounded_eq {x : ℚ} (onGrid : OnGrid x) : rounded x = x := by
  obtain ⟨mantissa, exponent, places, inside, rfl⟩ := onGrid
  by_cases zero : (mantissa : ℚ) * 2 ^ exponent = 0
  · rw [zero, rounded_zero]
  · have size : |(mantissa : ℚ) * 2 ^ exponent| < 2 ^ (53 + exponent) := by
      rw [abs_mul, abs_of_pos (two_zpow_pos _), two_zpow_add]
      refine mul_lt_mul_of_pos_right ?_ (two_zpow_pos _)
      exact_mod_cast places
    have log := log_lt_of_abs_lt zero size
    have place : lastPlace (mantissa * 2 ^ exponent) ≤ exponent := by
      unfold lastPlace
      omega
    obtain ⟨whole, isWhole⟩ := exists_two_zpow_eq place
    have units : (mantissa : ℚ) * 2 ^ exponent / 2 ^ lastPlace (mantissa * 2 ^ exponent) =
        ((mantissa * whole : ℤ) : ℚ) := by
      rw [div_eq_iff (two_zpow_pos _).ne']
      conv_lhs => rw [isWhole]
      push_cast
      ring
    rw [rounded, units, nearestEven.intCast, ← units, div_mul_cancel₀ _ (two_zpow_pos _).ne']

theorem rounded_le {x bound : ℚ} (onGrid : OnGrid bound) (le : x ≤ bound) : rounded x ≤ bound :=
  (rounded_mono le).trans_eq onGrid.rounded_eq

theorem le_rounded {x bound : ℚ} (onGrid : OnGrid bound) (le : bound ≤ x) : bound ≤ rounded x :=
  onGrid.rounded_eq.symm.trans_le (rounded_mono le)

/-- Whatever lies below a number that has all its places lies a unit of its last place below it. -/
theorem OnGrid.le_of_lt {x : ℚ} (onGrid : OnGrid x) {whole place : ℤ} (full : 2 ^ 52 < whole)
    (less : x < whole * 2 ^ place) : x ≤ (whole - 1 : ℤ) * 2 ^ place := by
  obtain ⟨mantissa, exponent, places, -, rfl⟩ := onGrid
  have positive := two_zpow_pos place
  rcases le_or_gt place exponent with le | below
  · obtain ⟨units, isUnits⟩ := exists_two_zpow_eq le
    rw [isUnits, ← mul_assoc] at less ⊢
    have fewer := lt_of_mul_lt_mul_right less positive.le
    refine mul_le_mul_of_nonneg_right ?_ positive.le
    exact_mod_cast Int.le_sub_one_of_lt (by exact_mod_cast fewer)
  · have short : (mantissa : ℚ) ≤ 2 ^ (53 : ℤ) := by exact_mod_cast ((le_abs_self _).trans places.le)
    have most : (2 : ℚ) ^ (52 : ℤ) ≤ (whole - 1 : ℤ) := by exact_mod_cast Int.le_sub_one_of_lt full
    calc
      _ ≤ (2 : ℚ) ^ (53 : ℤ) * 2 ^ exponent :=
        mul_le_mul_of_nonneg_right short (two_zpow_pos _).le
      _ = 2 ^ (53 + exponent) := (two_zpow_add _ _).symm
      _ ≤ 2 ^ (52 + place) := two_zpow_le (by omega)
      _ = 2 ^ (52 : ℤ) * 2 ^ place := two_zpow_add _ _
      _ ≤ _ := mul_le_mul_of_nonneg_right most positive.le

/-! ### The distance of rounding -/

theorem abs_rounded_sub_le (x : ℚ) : |rounded x - x| ≤ 2 ^ lastPlace x / 2 := by
  have near := nearestEven.abs_sub_le (x / 2 ^ lastPlace x)
  have scaled : rounded x - x =
      (nearestEven (x / 2 ^ lastPlace x) - x / 2 ^ lastPlace x) * 2 ^ lastPlace x := by
    rw [rounded, sub_mul, div_mul_cancel₀ _ (two_zpow_pos _).ne']
  rw [scaled, abs_mul, abs_of_pos (two_zpow_pos (lastPlace x))]
  have bound := mul_le_mul_of_nonneg_right near (two_zpow_pos (lastPlace x)).le
  linarith

/-- Numbers with 53 places lose less than a part in `2 ^ 53`. -/
theorem abs_rounded_sub_le_of_normal {x : ℚ} (normal : 2 ^ (-1022 : ℤ) ≤ |x|) :
    |rounded x - x| ≤ |x| / 2 ^ 53 := by
  have nonzero : x ≠ 0 := abs_pos.mp ((two_zpow_pos _).trans_le normal)
  have log := le_log_of_le_abs normal
  have place : lastPlace x = Int.log 2 |x| + -52 := by
    unfold lastPlace
    omega
  have size := le_abs_of_log nonzero
  have near := abs_rounded_sub_le x
  rw [place, two_zpow_add, show (2 : ℚ) ^ (-52 : ℤ) = 1 / 2 ^ 52 by norm_num] at near
  linarith

/-- The result of rounding tells as well as the number itself whether places were lost. -/
theorem abs_rounded_sub_le_of_rounded {x : ℚ} (normal : 2 ^ (-1022 : ℤ) ≤ |rounded x|) :
    |rounded x - x| ≤ |rounded x| / 2 ^ 53 := by
  have nonzero : x ≠ 0 := by
    rintro rfl
    rw [rounded_zero, abs_zero] at normal
    exact absurd normal (not_le.mpr (two_zpow_pos _))
  have place : 2 ^ lastPlace x ≤ |rounded x| * 2 ^ (-52 : ℤ) := by
    rcases (lastPlace_ge x).eq_or_lt with last | inner
    · rw [← last, show (-1074 : ℤ) = -1022 + -52 by rfl, two_zpow_add]
      exact mul_le_mul_of_nonneg_right normal (two_zpow_pos _).le
    · have exponent : lastPlace x = Int.log 2 |x| + -52 := by
        unfold lastPlace at inner ⊢
        omega
      have first : 2 ^ Int.log 2 |x| ≤ |rounded x| := by
        rw [abs_rounded]
        exact le_rounded (onGrid_two_zpow (by omega)) (le_abs_of_log nonzero)
      rw [exponent, two_zpow_add]
      exact mul_le_mul_of_nonneg_right first (two_zpow_pos _).le
  have near := abs_rounded_sub_le x
  rw [show (2 : ℚ) ^ (-52 : ℤ) = 1 / 2 ^ 52 by norm_num] at place
  linarith

theorem close_rounded {x : ℚ} (normal : 2 ^ (-1022 : ℤ) ≤ rounded x) :
    rounded x * (1 - 1 / 2 ^ 53) ≤ x ∧ x ≤ rounded x * (1 + 1 / 2 ^ 53) := by
  have near := abs_rounded_sub_le_of_rounded (normal.trans (le_abs_self _))
  rw [abs_of_pos ((two_zpow_pos _).trans_le normal)] at near
  obtain ⟨above, below⟩ := abs_le.mp near
  exact ⟨by linarith, by linarith⟩

/-- Multiples of the last place of all lose no more than that, however small. -/
theorem abs_rounded_sub_le_of_multiple (whole : ℤ) :
    |rounded (whole * 2 ^ (-1074 : ℤ)) - whole * 2 ^ (-1074 : ℤ)| ≤
      |(whole : ℚ) * 2 ^ (-1074 : ℤ)| / 2 ^ 53 := by
  by_cases normal : 2 ^ (-1022 : ℤ) ≤ |(whole : ℚ) * 2 ^ (-1074 : ℤ)|
  · exact abs_rounded_sub_le_of_normal normal
  · have small : |whole| < 2 ^ 53 := by
      rw [not_le, abs_mul, abs_of_pos (two_zpow_pos _), show (-1022 : ℤ) = 52 + -1074 by norm_num,
        two_zpow_add, mul_lt_mul_iff_left₀ (two_zpow_pos _)] at normal
      have castSmall : ((|whole| : ℤ) : ℚ) < (2 ^ 52 : ℤ) := by
        push_cast
        exact normal
      have smaller : |whole| < 2 ^ 52 := by exact_mod_cast castSmall
      omega
    have onGrid : OnGrid (whole * 2 ^ (-1074 : ℤ)) := ⟨whole, -1074, small, le_refl _, rfl⟩
    rw [onGrid.rounded_eq, sub_self, abs_zero]
    positivity

/-- However small the number, half the last place of all is the most that is added to that. -/
theorem abs_rounded_sub_le_add (x : ℚ) :
    |rounded x - x| ≤ |x| / 2 ^ 53 + 2 ^ (-1074 : ℤ) / 2 := by
  have half : (0 : ℚ) < 2 ^ (-1074 : ℤ) / 2 := half_pos (two_zpow_pos _)
  rcases eq_or_ne x 0 with rfl | nonzero
  · rw [rounded_zero, sub_zero, abs_zero, zero_div, zero_add]
    exact half.le
  by_cases normal : 2 ^ (-1022 : ℤ) ≤ |x|
  · exact (abs_rounded_sub_le_of_normal normal).trans (le_add_of_nonneg_right half.le)
  · have log := log_lt_of_abs_lt nonzero (not_le.mp normal)
    have last : lastPlace x = -1074 := by
      unfold lastPlace
      omega
    have near := abs_rounded_sub_le x
    rw [last] at near
    exact near.trans (le_add_of_nonneg_left (by positivity))

end TikzChart
