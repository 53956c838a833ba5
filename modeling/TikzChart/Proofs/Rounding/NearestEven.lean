import Mathlib.Data.Rat.Floor
import Mathlib.Tactic.Linarith
import Mathlib.Tactic.NormNum

/-!
Rounding to whole numbers, a half to the even one. Everything that is said about it follows from two
facts: it depends on nothing but the number, and it moves the number by a half at most.
-/

set_option autoImplicit false

namespace TikzChart

/-- The nearest whole number; of two that are equally near, the even one. -/
def nearestEven (x : ℚ) : ℤ :=
  if x - ⌊x⌋ < 1 / 2 then ⌊x⌋
  else if 1 / 2 < x - ⌊x⌋ then ⌊x⌋ + 1
  else ⌊x⌋ + ⌊x⌋ % 2

namespace nearestEven

variable {x y : ℚ} {n : ℤ}

/-! ### The three places between two whole numbers -/

theorem of_below_half (above : n ≤ x) (below : x < n + 1 / 2) : nearestEven x = n := by
  have floor : ⌊x⌋ = n := Int.floor_eq_iff.mpr ⟨above, by linarith⟩
  unfold nearestEven
  rw [floor, if_pos (by linarith)]

theorem of_above_half (above : n + 1 / 2 < x) (below : x < n + 1) : nearestEven x = n + 1 := by
  have floor : ⌊x⌋ = n := Int.floor_eq_iff.mpr ⟨by linarith, by linarith⟩
  unfold nearestEven
  rw [floor, if_neg (by linarith), if_pos (by linarith)]

theorem of_half (n : ℤ) : nearestEven (n + 1 / 2) = n + n % 2 := by
  have floor : ⌊(n : ℚ) + 1 / 2⌋ = n := Int.floor_eq_iff.mpr ⟨by linarith, by linarith⟩
  unfold nearestEven
  rw [floor, if_neg (by linarith), if_neg (by linarith)]

theorem intCast (n : ℤ) : nearestEven n = n :=
  of_below_half (le_refl _) (by linarith)

theorem zero : nearestEven 0 = 0 := by
  simpa using intCast 0

theorem cases (x : ℚ) :
    (∃ n : ℤ, n ≤ x ∧ x < n + 1 / 2 ∧ nearestEven x = n) ∨
      (∃ n : ℤ, n + 1 / 2 < x ∧ x < n + 1 ∧ nearestEven x = n + 1) ∨
      ∃ n : ℤ, x = n + 1 / 2 ∧ nearestEven x = n + n % 2 := by
  have low := Int.floor_le x
  have high := Int.lt_floor_add_one x
  rcases lt_trichotomy x (⌊x⌋ + 1 / 2) with below | same | above
  · exact .inl ⟨⌊x⌋, low, below, of_below_half low below⟩
  · refine .inr (.inr ⟨⌊x⌋, same, ?_⟩)
    have half := of_half ⌊x⌋
    rwa [← same] at half
  · exact .inr (.inl ⟨⌊x⌋, above, high, of_above_half above high⟩)

/-! ### Distance and order -/

theorem abs_sub_le (x : ℚ) : |(nearestEven x : ℚ) - x| ≤ 1 / 2 := by
  rcases cases x with ⟨n, low, high, same⟩ | ⟨n, low, high, same⟩ | ⟨n, half, same⟩
  · rw [same, abs_le]
    constructor <;> linarith
  · rw [same, abs_le]
    push_cast
    constructor <;> linarith
  · have parity : n % 2 = 0 ∨ n % 2 = 1 := by omega
    rw [same, half, abs_le]
    rcases parity with even | odd
    · rw [even]
      push_cast
      constructor <;> linarith
    · rw [odd]
      push_cast
      constructor <;> linarith

theorem mono (le : x ≤ y) : nearestEven x ≤ nearestEven y := by
  rcases le.eq_or_lt with rfl | less
  · exact le_refl _
  · -- whole numbers in the wrong order would be one apart, and the numbers themselves equal
    by_contra wrong
    have apart : nearestEven y + 1 ≤ nearestEven x := by omega
    have apartCast : (nearestEven y : ℚ) + 1 ≤ nearestEven x := by exact_mod_cast apart
    have nearX := abs_le.mp (abs_sub_le x)
    have nearY := abs_le.mp (abs_sub_le y)
    linarith

theorem le_intCast (le : x ≤ n) : nearestEven x ≤ n :=
  (mono le).trans_eq (intCast n)

theorem intCast_le (le : n ≤ x) : n ≤ nearestEven x :=
  (intCast n).symm.trans_le (mono le)

theorem neg (x : ℚ) : nearestEven (-x) = -nearestEven x := by
  rcases cases x with ⟨n, low, high, same⟩ | ⟨n, low, high, same⟩ | ⟨n, half, same⟩
  · rw [same]
    rcases low.eq_or_lt with whole | inside
    · rw [← whole, ← Int.cast_neg, intCast]
    · have above := of_above_half (x := -x) (n := -n - 1) (by push_cast; linarith)
        (by push_cast; linarith)
      rw [above]
      omega
  · rw [same]
    have below := of_below_half (x := -x) (n := -n - 1) (by push_cast; linarith)
      (by push_cast; linarith)
    rw [below]
    omega
  · have halfBelow : -x = ((-n - 1 : ℤ) : ℚ) + 1 / 2 := by
      rw [half]
      push_cast
      linarith
    rw [same, halfBelow, of_half]
    omega

end nearestEven

end TikzChart
