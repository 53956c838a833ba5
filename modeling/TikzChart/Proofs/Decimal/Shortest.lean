import TikzChart.Decimal.Shortest
import TikzChart.Proofs.Rounding.Neighbours

/-!
The decimal that is chosen for a float. Its exponent is the largest of all the decimals that round
to the float (`Interval.Surrounds.le_exponent`). So its last digit is not zero, and it has no more
places below the point than any other decimal that rounds to the same float
(`Interval.neg_places_le_exponent`).
-/

set_option autoImplicit false

namespace TikzChart.Decimal

open Unpacked

variable {x : Dyadic}

namespace Interval

variable {i : Interval}

/-- The value lies inside the interval, which does not reach down to zero. -/
structure Surrounds (i : Interval) : Prop where
  low_pos : 0 < i.low
  low_lt : i.low < i.value
  lt_high : i.value < i.high

theorem contains_iff {n : ℕ} : i.contains n = true ↔
    i.low ≤ n ∧ n ≤ i.high ∧ (i.closed = false → i.low < n ∧ n < i.high) := by
  unfold contains
  cases i.closed with
  | true => simp
  | false =>
      simp only [Bool.false_eq_true, if_false, Bool.and_eq_true, decide_eq_true_eq, forall_const]
      omega

theorem Surrounds.contains_value (surrounds : i.Surrounds) : i.contains i.value = true :=
  contains_iff.mpr ⟨surrounds.low_lt.le, surrounds.lt_high.le,
    fun _ => ⟨surrounds.low_lt, surrounds.lt_high⟩⟩

theorem Surrounds.contains_of_le (surrounds : i.Surrounds) {n nearer : ℕ}
    (contained : i.contains n = true) (le : n ≤ nearer) (below : nearer ≤ i.value) :
    i.contains nearer = true := by
  obtain ⟨low, -, inside⟩ := contains_iff.mp contained
  have lt_high := surrounds.lt_high
  refine contains_iff.mpr ⟨by omega, by omega, fun isOpen => ?_⟩
  have strict := inside isOpen
  omega

theorem Surrounds.contains_of_ge (surrounds : i.Surrounds) {n nearer : ℕ}
    (contained : i.contains n = true) (le : nearer ≤ n) (above : i.value ≤ nearer) :
    i.contains nearer = true := by
  obtain ⟨-, high, inside⟩ := contains_iff.mp contained
  have low_lt := surrounds.low_lt
  refine contains_iff.mpr ⟨by omega, by omega, fun isOpen => ?_⟩
  have strict := inside isOpen
  omega

/-! ### Multiples of a power of ten -/

theorem contains_of_multiple {power found : ℕ} (isMultiple : i.multiple? power = some found) :
    i.contains (found * 10 ^ power) = true := by
  unfold multiple? at isMultiple
  dsimp only at isMultiple
  split at isMultiple
  · next chosen =>
      cases isMultiple
      exact (Bool.and_eq_true_iff.mp chosen).1
  · split at isMultiple
    · next hasAbove =>
        cases isMultiple
        exact hasAbove
    · cases isMultiple

/-- One of the two multiples around the value is in the interval if any is. -/
theorem Surrounds.exists_multiple (surrounds : i.Surrounds) {power k : ℕ}
    (contained : i.contains (k * 10 ^ power) = true) :
    ∃ found, i.multiple? power = some found := by
  have gridPos : 0 < 10 ^ power := Nat.pow_pos (by norm_num)
  have belowLe : i.value / 10 ^ power * 10 ^ power ≤ i.value := Nat.div_mul_le_self _ _
  have ltAbove : i.value < (i.value / 10 ^ power + 1) * 10 ^ power :=
    (Nat.div_lt_iff_lt_mul gridPos).mp (Nat.lt_succ_self _)
  have either : i.contains (i.value / 10 ^ power * 10 ^ power) = true ∨
      i.contains ((i.value / 10 ^ power + 1) * 10 ^ power) = true := by
    rcases Nat.lt_or_ge (i.value / 10 ^ power) k with above | below
    · exact .inr (surrounds.contains_of_ge contained (Nat.mul_le_mul_right _ above) ltAbove.le)
    · exact .inl (surrounds.contains_of_le contained (Nat.mul_le_mul_right _ below) belowLe)
  unfold multiple?
  dsimp only [Nat.pow_eq]
  split
  · exact ⟨_, rfl⟩
  · next notBelow =>
      split
      · exact ⟨_, rfl⟩
      · next notAbove =>
          rcases either with hasBelow | hasAbove
          · simp [hasBelow, notAbove] at notBelow
          · exact absurd hasAbove notAbove

/-! ### The coarsest of them -/

theorem Surrounds.contains_coarsest (surrounds : i.Surrounds) (bound : ℕ) :
    i.contains ((i.coarsest bound).1 * 10 ^ (i.coarsest bound).2) = true := by
  induction bound with
  | zero =>
      rw [coarsest, pow_zero, mul_one]
      exact surrounds.contains_value
  | succ bound ih =>
      unfold coarsest
      cases isMultiple : i.multiple? (bound + 1) with
      | none => exact ih
      | some found => exact contains_of_multiple isMultiple

theorem Surrounds.le_coarsest (surrounds : i.Surrounds) {bound power k : ℕ} (le : power ≤ bound)
    (contained : i.contains (k * 10 ^ power) = true) : power ≤ (i.coarsest bound).2 := by
  induction bound with
  | zero => exact le
  | succ bound ih =>
      unfold coarsest
      rcases Nat.le_succ_iff.mp le with below | rfl
      · cases i.multiple? (bound + 1) with
        | none => exact ih below
        | some found => exact le
      · obtain ⟨found, isMultiple⟩ := surrounds.exists_multiple contained
        rw [isMultiple]

/-- Binary places are less than `30103 / 100000` decimal ones; `4004 / 13301` lies in between. -/
theorem two_pow_lt_ten_pow (places : ℕ) : 2 ^ places < 10 ^ (places * 30103 / 100000 + 1) := by
  have ratio : 2 ^ 13301 ≤ 10 ^ 4004 := by decide +kernel
  have exponents : 4004 * places < 13301 * (places * 30103 / 100000 + 1) := by omega
  refine lt_of_pow_lt_pow_left₀ 13301 (Nat.zero_le _) ?_
  calc
    (2 ^ places) ^ 13301 = (2 ^ 13301) ^ places := pow_right_comm 2 places 13301
    _ ≤ (10 ^ 4004) ^ places := Nat.pow_le_pow_left ratio places
    _ = 10 ^ (4004 * places) := (pow_mul 10 4004 places).symm
    _ < 10 ^ (13301 * (places * 30103 / 100000 + 1)) :=
      Nat.pow_lt_pow_right (by norm_num) exponents
    _ = (10 ^ (places * 30103 / 100000 + 1)) ^ 13301 := by rw [mul_comm, pow_mul]

theorem lt_powerBound (i : Interval) : i.high < 10 ^ i.powerBound :=
  Nat.lt_log2_self.trans (two_pow_lt_ten_pow (i.high.log2 + 1))

theorem shortest_of_coarsest {digits power : ℕ}
    (chosen : i.coarsest i.powerBound = (digits, power)) :
    i.shortest = (digits, (power : ℤ) + i.unit) := by
  rw [shortest, chosen]

theorem Surrounds.le_exponent (surrounds : i.Surrounds) {power k : ℕ}
    (contained : i.contains (k * 10 ^ power) = true) : power + i.unit ≤ i.shortest.2 := by
  have inside := contains_iff.mp contained
  have positive : 0 < k := by
    rcases Nat.eq_zero_or_pos k with rfl | positive
    · have low_pos := surrounds.low_pos
      omega
    · exact positive
  have small : 10 ^ power < 10 ^ i.powerBound :=
    (Nat.le_mul_of_pos_left _ positive).trans_lt (inside.2.1.trans_lt i.lt_powerBound)
  have bounded : power ≤ i.powerBound := ((Nat.pow_lt_pow_iff_right (by norm_num)).mp small).le
  have coarse := surrounds.le_coarsest bounded contained
  cases chosen : i.coarsest i.powerBound with
  | mk digits coarsest =>
      rw [chosen] at coarse
      rw [shortest_of_coarsest chosen]
      dsimp only at coarse ⊢
      omega

/-- A zero at the end would make the next power of ten possible. -/
theorem Surrounds.last_digit_ne_zero (surrounds : i.Surrounds) : i.shortest.1 % 10 ≠ 0 := by
  have contained := surrounds.contains_coarsest i.powerBound
  cases chosen : i.coarsest i.powerBound with
  | mk digits power =>
      rw [chosen] at contained
      rw [shortest_of_coarsest chosen]
      intro isZero
      obtain ⟨k, rfl⟩ := Nat.dvd_of_mod_eq_zero isZero
      dsimp only at contained
      rw [mul_comm 10 k, mul_assoc, ← pow_succ'] at contained
      have coarser := surrounds.le_exponent contained
      rw [shortest_of_coarsest chosen] at coarser
      push_cast at coarser
      omega

theorem unit_le_exponent (i : Interval) : i.unit ≤ i.shortest.2 := by
  cases chosen : i.coarsest i.powerBound with
  | mk digits power =>
      rw [shortest_of_coarsest chosen]
      dsimp only
      omega

/-! ### The interval of a float -/

theorem exists_quarter (x : Dyadic) : ∃ quarter toLow, 0 < quarter ∧ 0 < toLow ∧ toLow ≤ 2 ∧
    (ofDyadic x).low = (4 * x.mantissa - toLow) * quarter ∧
    (ofDyadic x).value = 4 * x.mantissa * quarter ∧
    (ofDyadic x).high = (4 * x.mantissa + 2) * quarter := by
  refine ⟨_, _, ?_, ?_, ?_, rfl, rfl, rfl⟩
  · split
    · exact Nat.pow_pos (by norm_num)
    · exact Nat.pow_pos (by norm_num)
  · split <;> norm_num
  · split <;> norm_num

theorem surrounds_ofDyadic (positive : 0 < x.mantissa) : (ofDyadic x).Surrounds := by
  obtain ⟨quarter, toLow, quarterPos, toLowPos, toLowLe, low, value, high⟩ := exists_quarter x
  refine ⟨?_, ?_, ?_⟩
  · rw [low]
    exact Nat.mul_pos (by omega) quarterPos
  · rw [low, value]
    exact Nat.mul_lt_mul_of_pos_right (by omega) quarterPos
  · rw [value, high]
    exact Nat.mul_lt_mul_of_pos_right (by omega) quarterPos

/-- With places below the point the interval is counted in the last of their decimal places. -/
theorem ofDyadic_of_negSucc {down : ℕ} (places : x.exponent - 2 = .negSucc down) :
    ofDyadic x = {
      low := (4 * x.mantissa - quartersBelow x.mantissa x.exponent) * 5 ^ (down + 1)
      value := 4 * x.mantissa * 5 ^ (down + 1)
      high := (4 * x.mantissa + 2) * 5 ^ (down + 1)
      unit := .negSucc down
      closed := x.mantissa % 2 == 0 } := by
  unfold ofDyadic quartersBelow
  rw [places]
  have unit : min (Int.negSucc down) 0 = Int.negSucc down := min_eq_left (Int.negSucc_lt_zero _).le
  rw [unit]
  rfl

theorem contains_of_withinQuarters {down n : ℕ} {quarters : ℚ}
    (places : x.exponent - 2 = .negSucc down) (positive : 0 < x.mantissa)
    (within : WithinQuarters x.mantissa x.exponent quarters)
    (same : (n : ℚ) = quarters * 5 ^ (down + 1)) : (ofDyadic x).contains n = true := by
  have powerPos : (0 : ℚ) < 5 ^ (down + 1) := pow_pos (by norm_num) _
  have few : quartersBelow x.mantissa x.exponent ≤ 4 * x.mantissa := by
    unfold quartersBelow
    split <;> omega
  have lowCast :
      (((4 * x.mantissa - quartersBelow x.mantissa x.exponent) * 5 ^ (down + 1) : ℕ) : ℚ) =
        (4 * x.mantissa - quartersBelow x.mantissa x.exponent) * 5 ^ (down + 1) := by
    push_cast [Nat.cast_sub few]
    rfl
  have highCast : (((4 * x.mantissa + 2) * 5 ^ (down + 1) : ℕ) : ℚ) =
      (4 * x.mantissa + 2) * 5 ^ (down + 1) := by
    push_cast
    rfl
  rw [ofDyadic_of_negSucc places, contains_iff]
  dsimp only
  refine ⟨?_, ?_, fun isOpen => ?_⟩
  · rw [← Nat.cast_le (α := ℚ), lowCast, same]
    exact mul_le_mul_of_nonneg_right within.low powerPos.le
  · rw [← Nat.cast_le (α := ℚ), highCast, same]
    exact mul_le_mul_of_nonneg_right within.high powerPos.le
  · have odd : x.mantissa % 2 = 1 := by
      have notEven : ¬x.mantissa % 2 = 0 := beq_eq_false_iff_ne.mp isOpen
      omega
    have inside := within.inside odd
    rw [← Nat.cast_lt (α := ℚ), ← Nat.cast_lt (α := ℚ), lowCast, highCast, same]
    exact ⟨mul_lt_mul_of_pos_right inside.1 powerPos, mul_lt_mul_of_pos_right inside.2 powerPos⟩

theorem neg_places_le_exponent (hasPlaces : HasPlaces x.mantissa x.exponent)
    (positive : 0 < x.mantissa) {n decimals : ℕ}
    (same : rounded (n / 10 ^ decimals) = x.mantissa * 2 ^ x.exponent) :
    -(decimals : ℤ) ≤ (ofDyadic x).shortest.2 := by
  have unitLe := (ofDyadic x).unit_le_exponent
  cases places : x.exponent - 2 with
  | ofNat up =>
      have unit : (ofDyadic x).unit = 0 := by
        change min (x.exponent - 2) 0 = 0
        rw [places]
        exact min_eq_right (Int.natCast_nonneg up)
      omega
  | negSucc down =>
      have unit : (ofDyadic x).unit = .negSucc down := by rw [ofDyadic_of_negSucc places]
      rcases Nat.le_total (down + 1) decimals with enough | more
      · rw [unit, Int.negSucc_eq] at unitLe
        omega
      · have within := rounded_quarters hasPlaces positive same
        rw [places] at within
        -- all these decimals are places of the unit in which the interval is counted
        have inUnits : ((n * 10 ^ (down + 1 - decimals) : ℕ) : ℚ) =
            (n : ℚ) / 10 ^ decimals / 2 ^ Int.negSucc down * 5 ^ (down + 1) := by
          have powers : (10 : ℚ) ^ (down + 1) = 10 ^ (down + 1 - decimals) * 10 ^ decimals := by
            rw [← pow_add, Nat.sub_add_cancel more]
          have tens : (10 : ℚ) ^ (down + 1) = 2 ^ (down + 1) * 5 ^ (down + 1) := by
            rw [← mul_pow]
            norm_num
          rw [zpow_negSucc, div_inv_eq_mul, mul_assoc, ← tens, powers]
          push_cast
          field_simp
        have contained := contains_of_withinQuarters places positive within inUnits
        have coarse := (surrounds_ofDyadic positive).le_exponent contained
        rw [unit, Int.negSucc_eq] at coarse
        omega

end Interval

theorem shortestDigits_of_shortest {digits : ℕ} {exponent : ℤ} (nonzero : x.mantissa ≠ 0)
    (chosen : (Interval.ofDyadic x).shortest = (digits, exponent)) :
    shortestDigits x = positional digits exponent := by
  rw [shortestDigits, if_neg nonzero, chosen]

end TikzChart.Decimal
