import TikzChart.Picture.Legend
import TikzChart.Proofs.Rounding.Order
import TikzChart.Proofs.Rounding.WholeNumbers

/-!
The rows of a legend by their positions in series order. As long as rows have no negative height,
none stands above an earlier one, also where rounding or overflow moves them; and rounding keeps
rows apart whose height is neither tiny nor lost beside the shift.
-/

set_option autoImplicit false

namespace TikzChart

open Float.Model

namespace Legend

/-- Where a row stands, counted from the top, if there are so many rows. -/
def rowHeight (layout : LegendLayout) (rows position : Nat) : Float :=
  layout.entryYshift + Float.ofNat (rows - 1 - position) * layout.entryHeight

variable {layout : LegendLayout} {rows upper lower : Nat}

theorem rowHeight_le (shiftFinite : layout.entryYshift.isFinite = true)
    (heightFinite : layout.entryHeight.isFinite = true) (nonneg : 0 ≤ layout.entryHeight)
    (few : rows < 2 ^ 53) (above : upper ≤ lower) :
    rowHeight layout rows lower ≤ rowHeight layout rows upper := by
  obtain ⟨zeroFinite, isZero⟩ := ofNat_exact (n := 0) (by norm_num)
  obtain ⟨lowerFinite, isLower⟩ := ofNat_exact (n := rows - 1 - lower) (by omega)
  obtain ⟨upperFinite, isUpper⟩ := ofNat_exact (n := rows - 1 - upper) (by omega)
  have lowerProduct := roundsTo_mul lowerFinite heightFinite
  have upperProduct := roundsTo_mul upperFinite heightFinite
  have heightNonneg := (le_iff_exactValue_le zeroFinite heightFinite).mp nonneg
  rw [isZero, Nat.cast_zero] at heightNonneg
  have fewer : ((rows - 1 - lower : ℕ) : ℚ) ≤ (rows - 1 - upper : ℕ) := by
    exact_mod_cast Nat.sub_le_sub_left above _
  apply add_le_add_of_isFinite shiftFinite lowerProduct.notNaN upperProduct.notNaN
  rw [lowerProduct.extendedValue_eq, upperProduct.extendedValue_eq, isLower, isUpper]
  exact clamped_mono (mul_le_mul_of_nonneg_right fewer heightNonneg)

end Legend

/-! ### Rows that rounding keeps apart -/

/-- The height of rows is neither tiny nor huge, and the shift does not dwarf it. -/
structure LegendLayout.KeepsApart (layout : LegendLayout) : Prop where
  shiftFinite : layout.entryYshift.isFinite = true
  heightFinite : layout.entryHeight.isFinite = true
  notTiny : 2 ^ (-1000 : ℤ) ≤ exactValue layout.entryHeight
  notHuge : exactValue layout.entryHeight ≤ 2 ^ (900 : ℤ)
  shiftSmall : |exactValue layout.entryYshift| ≤ 2 ^ 40 * exactValue layout.entryHeight

/-- Rounding a few units moves by less than a thousandth of one. -/
theorem abs_rounded_sub_le_of_units {x unit : ℚ} (notTiny : 2 ^ (-1000 : ℤ) ≤ unit)
    (size : |x| ≤ 2 ^ 41 * unit) : |rounded x - x| ≤ unit / 2 ^ 11 := by
  have tiny : (2 : ℚ) ^ (-1074 : ℤ) / 2 ≤ unit / 2 ^ 12 := by
    rw [show (-1074 : ℤ) = -1000 + -74 by rfl, two_zpow_add]
    have part : (2 : ℚ) ^ (-74 : ℤ) / 2 ≤ 1 / 2 ^ 12 := by norm_num
    calc
      (2 : ℚ) ^ (-1000 : ℤ) * 2 ^ (-74 : ℤ) / 2 = 2 ^ (-1000 : ℤ) * (2 ^ (-74 : ℤ) / 2) := by ring
      _ ≤ unit * (1 / 2 ^ 12) :=
        mul_le_mul notTiny part (by positivity) ((two_zpow_pos _).le.trans notTiny)
      _ = unit / 2 ^ 12 := by ring
  calc
    |rounded x - x| ≤ |x| / 2 ^ 53 + 2 ^ (-1074 : ℤ) / 2 := abs_rounded_sub_le_add x
    _ ≤ 2 ^ 41 * unit / 2 ^ 53 + unit / 2 ^ 12 :=
      add_le_add (div_le_div_of_nonneg_right size (by norm_num)) tiny
    _ = unit / 2 ^ 11 := by ring

namespace LegendLayout.KeepsApart

variable {layout : LegendLayout} (keepsApart : layout.KeepsApart) {below : ℕ} (few : below < 2 ^ 10)

include keepsApart few

theorem near :
    (layout.entryYshift + Float.ofNat below * layout.entryHeight).isFinite = true ∧
      |exactValue (layout.entryYshift + Float.ofNat below * layout.entryHeight)
        - (exactValue layout.entryYshift + below * exactValue layout.entryHeight)| ≤
          exactValue layout.entryHeight / 2 ^ 10 := by
  obtain ⟨shiftFinite, heightFinite, notTiny, notHuge, shiftSmall⟩ := keepsApart
  obtain ⟨countFinite, isCount⟩ := ofNat_exact (n := below) (by omega)
  have positive := (two_zpow_pos (-1000)).trans_le notTiny
  have product := isRounding_mul countFinite heightFinite
  rw [isCount] at product
  have castFew : (below : ℚ) ≤ 2 ^ 10 := by exact_mod_cast few.le
  have rise : |(below : ℚ) * exactValue layout.entryHeight| ≤
      2 ^ 10 * exactValue layout.entryHeight := by
    rw [abs_of_nonneg (mul_nonneg below.cast_nonneg positive.le)]
    exact mul_le_mul_of_nonneg_right castFew positive.le
  have largest : 2 ^ 41 * exactValue layout.entryHeight ≤ 2 ^ (941 : ℤ) := by
    rw [show (941 : ℤ) = 41 + 900 by rfl, two_zpow_add]
    exact mul_le_mul_of_nonneg_left notHuge (by norm_num)
  have room : (2 : ℚ) ^ (941 : ℤ) < 2 ^ (1024 : ℤ) :=
    zpow_lt_zpow_right₀ (by norm_num) (by norm_num)
  have onGrid : OnGrid (2 ^ (941 : ℤ)) := onGrid_two_zpow (by norm_num)
  have riseSize : |(below : ℚ) * exactValue layout.entryHeight| ≤
      2 ^ 41 * exactValue layout.entryHeight := by linarith
  have productFinite := product.isFinite_of_le onGrid room (riseSize.trans largest)
  have productNear := abs_rounded_sub_le_of_units notTiny riseSize
  rw [← product.exactValue_eq productFinite] at productNear
  have sum := isRounding_add shiftFinite productFinite
  have sumSize : |exactValue layout.entryYshift
      + exactValue (Float.ofNat below * layout.entryHeight)| ≤
        2 ^ 41 * exactValue layout.entryHeight := by
    rw [abs_le] at *
    constructor <;> linarith
  have sumFinite := sum.isFinite_of_le onGrid room (sumSize.trans largest)
  have sumNear := abs_rounded_sub_le_of_units notTiny sumSize
  rw [← sum.exactValue_eq sumFinite] at sumNear
  refine ⟨sumFinite, ?_⟩
  rw [abs_le] at *
  constructor <;> linarith

end LegendLayout.KeepsApart

theorem Legend.rowHeight_lt {layout : LegendLayout} {rows upper lower : Nat}
    (keepsApart : layout.KeepsApart) (few : rows < 2 ^ 10) (above : upper < lower)
    (within : lower < rows) : rowHeight layout rows lower < rowHeight layout rows upper := by
  obtain ⟨lowerFinite, lowerNear⟩ := keepsApart.near (show rows - 1 - lower < 2 ^ 10 by omega)
  obtain ⟨upperFinite, upperNear⟩ := keepsApart.near (show rows - 1 - upper < 2 ^ 10 by omega)
  have positive := (two_zpow_pos (-1000)).trans_le keepsApart.notTiny
  have fewer : ((rows - 1 - lower : ℕ) : ℚ) + 1 ≤ (rows - 1 - upper : ℕ) := by
    exact_mod_cast (by omega : rows - 1 - lower + 1 ≤ rows - 1 - upper)
  have step := mul_le_mul_of_nonneg_right fewer positive.le
  rw [add_one_mul] at step
  apply (lt_iff_exactValue_lt lowerFinite upperFinite).mpr
  rw [abs_le] at lowerNear upperNear
  linarith

/-- The rows of a new chart are kept apart. -/
theorem LegendLayout.keepsApart_default : LegendLayout.KeepsApart {} := by
  obtain ⟨shiftFinite, isShift⟩ := ofNat_exact (n := 1) (by norm_num)
  obtain ⟨heightFinite, isHeight⟩ := ofNat_exact (n := 4) (by norm_num)
  have four : exactValue (Float.ofNat 4) = 2 ^ (2 : ℤ) := by
    rw [isHeight]
    norm_num
  refine ⟨shiftFinite, heightFinite, ?_, ?_, ?_⟩
  · exact (two_zpow_le (by norm_num)).trans_eq four.symm
  · exact four.trans_le (two_zpow_le (by norm_num))
  · change |exactValue (Float.ofNat 1)| ≤ 2 ^ 40 * exactValue (Float.ofNat 4)
    rw [isShift, isHeight]
    norm_num

end TikzChart
