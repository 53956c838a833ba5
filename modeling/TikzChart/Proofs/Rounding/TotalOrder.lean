import TikzChart.Decimal.Binary64
import TikzChart.Proofs.Rounding.Order
import TikzChart.Proofs.Rounding.WholeNumbers

/-!
The total order of bit patterns against the order of numbers. A pattern stands at a place on the
line of rationals, infinities at the first power of two beyond the range. Patterns in total order
stand in the order of their places, floats that are no NaN are compared by them, and patterns
without a sign are in total order whenever their places are.
-/

set_option autoImplicit false

namespace TikzChart

open Float.Model Float.Model.UnpackedFloat Unpacked

/-! ### Magnitudes -/

/-- The number that a magnitude stands for. -/
def magnitudeValue (magnitude : ℕ) : ℚ :=
  if magnitude / 2 ^ 52 = 0 then ((magnitude % 2 ^ 52 : ℕ) : ℚ) * 2 ^ (-1074 : ℤ)
  else ((2 ^ 52 + magnitude % 2 ^ 52 : ℕ) : ℚ) * 2 ^ (((magnitude / 2 ^ 52 : ℕ) : ℤ) - 1075)

theorem magnitudeValue_zero : magnitudeValue 0 = 0 := by
  rw [magnitudeValue, if_pos (by norm_num)]
  norm_num

theorem magnitudeValue_infinity : magnitudeValue Binary64.infinityMagnitude = 2 ^ (1024 : ℤ) := by
  have field : Binary64.infinityMagnitude / 2 ^ 52 = 2047 := by decide
  have fraction : Binary64.infinityMagnitude % 2 ^ 52 = 0 := by decide
  rw [magnitudeValue, field, fraction, if_neg (by norm_num)]
  calc ((2 ^ 52 + 0 : ℕ) : ℚ) * 2 ^ (((2047 : ℕ) : ℤ) - 1075)
      = 2 ^ (52 : ℤ) * 2 ^ (972 : ℤ) := by norm_num
    _ = 2 ^ (1024 : ℤ) := by rw [← two_zpow_add]; rfl

/-- From one magnitude to the next it is one unit of the last place, also where the exponent
changes. -/
theorem magnitudeValue_succ (magnitude : ℕ) :
    magnitudeValue (magnitude + 1) =
      magnitudeValue magnitude + 2 ^ (max ((magnitude / 2 ^ 52 : ℕ) : ℤ) 1 - 1075) := by
  unfold magnitudeValue
  -- when the fraction is full the next magnitude has the next exponent and no fraction
  by_cases carry : magnitude % 2 ^ 52 + 1 = 2 ^ 52
  · have field : (magnitude + 1) / 2 ^ 52 = magnitude / 2 ^ 52 + 1 := by omega
    have fraction : (magnitude + 1) % 2 ^ 52 = 0 := by omega
    have last : magnitude % 2 ^ 52 = 2 ^ 52 - 1 := by omega
    rw [field, fraction, last, if_neg (Nat.succ_ne_zero _)]
    by_cases subnormal : magnitude / 2 ^ 52 = 0
    · rw [if_pos subnormal, subnormal, show ((0 + 1 : ℕ) : ℤ) - 1075 = -1074 by rfl,
        show max ((0 : ℕ) : ℤ) 1 - 1075 = -1074 by rfl]
      generalize (2 : ℚ) ^ (-1074 : ℤ) = unit
      push_cast
      ring
    · rw [if_neg subnormal, max_eq_left (by omega), show ((magnitude / 2 ^ 52 + 1 : ℕ) : ℤ) - 1075 =
        1 + (((magnitude / 2 ^ 52 : ℕ) : ℤ) - 1075) by push_cast; ring, two_zpow_add]
      push_cast
      ring
  · have field : (magnitude + 1) / 2 ^ 52 = magnitude / 2 ^ 52 := by omega
    have fraction : (magnitude + 1) % 2 ^ 52 = magnitude % 2 ^ 52 + 1 := by omega
    rw [field, fraction]
    by_cases subnormal : magnitude / 2 ^ 52 = 0
    · rw [if_pos subnormal, if_pos subnormal, subnormal,
        show max ((0 : ℕ) : ℤ) 1 - 1075 = -1074 by rfl]
      generalize (2 : ℚ) ^ (-1074 : ℤ) = unit
      push_cast
      ring
    · rw [if_neg subnormal, if_neg subnormal, max_eq_left (by omega)]
      push_cast
      ring

theorem magnitudeValue_strictMono : StrictMono magnitudeValue := by
  apply strictMono_nat_of_lt_succ
  intro magnitude
  rw [magnitudeValue_succ]
  exact lt_add_of_pos_right _ (two_zpow_pos _)

theorem magnitudeValue_nonneg (magnitude : ℕ) : 0 ≤ magnitudeValue magnitude := by
  rw [← magnitudeValue_zero]
  exact magnitudeValue_strictMono.monotone (Nat.zero_le magnitude)

/-! ### What a pattern holds -/

section

variable (bits : BitVec 64)

theorem Unpacked.unpack_of_ones (ones : bits.toNat / 2 ^ 52 % 2 ^ 11 = 2047) :
    UnpackedFloat.unpack Format.binary64 bits =
      if bits.toNat % 2 ^ 52 = 0 then
        .infinity (if 2 ^ 63 ≤ bits.toNat then .negative else .positive)
      else .notANumber := by
  have exponent : @UnpackedFloat.unpackExponent Format.binary64 bits = -1#11 := by
    apply BitVec.eq_of_toNat_eq
    rw [toNat_unpackExponent, ones]
    rfl
  have mantissa : @UnpackedFloat.unpackMantissa Format.binary64 bits = 0#52 ↔
      bits.toNat % 2 ^ 52 = 0 := by
    rw [← toNat_unpackMantissa, ← BitVec.toNat_inj]
    rfl
  unfold UnpackedFloat.unpack
  dsimp only
  rw [if_pos exponent, sign_unpackSign]
  by_cases none : bits.toNat % 2 ^ 52 = 0
  · rw [if_pos none, if_pos (mantissa.mpr none)]
  · rw [if_neg none, if_neg fun zero => none (mantissa.mp zero)]

theorem Unpacked.isFinite_unpack (notOnes : bits.toNat / 2 ^ 52 % 2 ^ 11 ≠ 2047) :
    (UnpackedFloat.unpack Format.binary64 bits).isFinite = true := by
  have exponent : @UnpackedFloat.unpackExponent Format.binary64 bits ≠ -1#11 := by
    intro ones
    apply notOnes
    rw [← toNat_unpackExponent, ones]
    rfl
  unfold UnpackedFloat.unpack
  dsimp only
  rw [if_neg exponent]
  split
  · split <;> rfl
  · rfl

end

namespace Binary64

variable {x y : Binary64}

/-- Where a pattern stands on the line. -/
def place (x : Binary64) : ℚ :=
  unit (if x.isNegative then .negative else .positive) * magnitudeValue x.magnitude

theorem unpack_toFloat (x : Binary64) :
    x.toFloat.toModel.unpack = UnpackedFloat.unpack Format.binary64 x.bits.toBitVec :=
  unpack_ofModel_pack (canonical_unpack _).1 (canonical_unpack _).2

theorem magnitude_fields (x : Binary64) :
    x.bits.toBitVec.toNat / 2 ^ 52 % 2 ^ 11 = x.magnitude / 2 ^ 52 ∧
      x.bits.toBitVec.toNat % 2 ^ 52 = x.magnitude % 2 ^ 52 ∧ x.magnitude < 2 ^ 63 := by
  have isMagnitude : x.magnitude = x.bits.toBitVec.toNat % 2 ^ 63 := rfl
  rw [isMagnitude]
  omega

theorem isNaN_unpack (x : Binary64) :
    (UnpackedFloat.unpack Format.binary64 x.bits.toBitVec).isNaN = x.isNaN := by
  obtain ⟨field, fraction, small⟩ := x.magnitude_fields
  have limit : infinityMagnitude = 2047 * 2 ^ 52 := rfl
  unfold isNaN
  rw [limit]
  by_cases ones : x.bits.toBitVec.toNat / 2 ^ 52 % 2 ^ 11 = 2047
  · rw [unpack_of_ones _ ones]
    split
    · exact (decide_eq_false (by omega)).symm
    · exact (decide_eq_true (by omega)).symm
  · rw [decide_eq_false (by omega)]
    rcases finite_cases (isFinite_unpack _ ones) with ⟨_, form⟩ | ⟨_, _, _, _, form⟩ <;> rw [form] <;>
      rfl

theorem extended_unpack (notNaN : x.isNaN = false) :
    extended (UnpackedFloat.unpack Format.binary64 x.bits.toBitVec) = x.place := by
  obtain ⟨field, fraction, small⟩ := x.magnitude_fields
  have sign : (if x.isNegative = true then Sign.negative else .positive) =
      if 2 ^ 63 ≤ x.bits.toBitVec.toNat then Sign.negative else .positive := by
    unfold isNegative
    simp only [decide_eq_true_eq]
    rfl
  by_cases ones : x.bits.toBitVec.toNat / 2 ^ 52 % 2 ^ 11 = 2047
  · have limit : infinityMagnitude = 2047 * 2 ^ 52 := rfl
    have isInfinity : x.magnitude = infinityMagnitude := by
      have inside := of_decide_eq_false notNaN
      omega
    rw [unpack_of_ones _ ones, if_pos (by omega), place, isInfinity, magnitudeValue_infinity, sign]
    rfl
  · have isFinite := isFinite_unpack _ ones
    have isValue : extended (UnpackedFloat.unpack Format.binary64 x.bits.toBitVec) =
        value (UnpackedFloat.unpack Format.binary64 x.bits.toBitVec) := by
      rcases finite_cases isFinite with ⟨_, form⟩ | ⟨_, _, _, _, form⟩ <;> rw [form] <;> rfl
    rw [isValue, value_unpack _ isFinite, field, fraction, place, sign]
    rfl

theorem isNaN_toFloat (x : Binary64) : x.toFloat.isNaN = x.isNaN := by
  change x.toFloat.toModel.unpack.isNaN = x.isNaN
  rw [unpack_toFloat, isNaN_unpack]

theorem extendedValue_toFloat (notNaN : x.isNaN = false) : extendedValue x.toFloat = x.place := by
  rw [extendedValue, unpack_toFloat, extended_unpack notNaN]

theorem isNaN_ofFloat (value : Float) : (ofFloat value).isNaN = value.isNaN :=
  (isNaN_unpack (ofFloat value)).symm

theorem place_ofFloat {value : Float} (notNaN : value.isNaN = false) :
    (ofFloat value).place = extendedValue value :=
  (extended_unpack ((isNaN_ofFloat value).trans notNaN)).symm

/-! ### Total order -/

theorem toNat_bits (x : Binary64) :
    x.bits.toNat = (if x.isNegative then 2 ^ 63 else 0) + x.magnitude := by
  have bound : x.bits.toNat < 2 ^ 64 := x.bits.toNat_lt
  have isMagnitude : x.magnitude = x.bits.toNat % 2 ^ 63 := rfl
  have sign : x.isNegative = true ↔ 2 ^ 63 ≤ x.bits.toNat := decide_eq_true_iff
  rw [isMagnitude]
  split
  · next negative =>
      have large := sign.mp negative
      omega
  · next positive =>
      have short := not_le.mp fun large => positive (sign.mpr large)
      omega

/-- Every pattern has a place of its own in the total order. -/
theorem orderKey_injective : Function.Injective orderKey := by
  intro x y same
  have xBits := x.toNat_bits
  have yBits := y.toNat_bits
  -- keys of negative patterns lie below zero, those of the others do not, so both signs agree
  have bits : x.bits = y.bits := by
    apply UInt64.toNat_inj.mp
    unfold orderKey at same
    cases xSign : x.isNegative <;> cases ySign : y.isNegative <;>
      simp only [xSign, ySign, ↓reduceIte, Bool.false_eq_true] at same xBits yBits <;> omega
  cases x
  cases y
  exact congrArg Binary64.mk bits

theorem totalLe_trans {x y z : Binary64} (first : x.totalLe y = true) (second : y.totalLe z = true) :
    x.totalLe z = true :=
  decide_eq_true ((of_decide_eq_true first).trans (of_decide_eq_true second))

theorem totalLe_total (x y : Binary64) : (x.totalLe y || y.totalLe x) = true := by
  rw [Bool.or_eq_true]
  exact (le_total x.orderKey y.orderKey).imp decide_eq_true decide_eq_true

theorem totalLe_antisymm (first : x.totalLe y = true) (second : y.totalLe x = true) : x = y :=
  orderKey_injective (le_antisymm (of_decide_eq_true first) (of_decide_eq_true second))

theorem place_of_isNegative (negative : x.isNegative = true) :
    x.place = -magnitudeValue x.magnitude := by
  rw [place, if_pos negative, unit, neg_one_mul]

theorem place_of_not_isNegative (positive : x.isNegative = false) :
    x.place = magnitudeValue x.magnitude := by
  rw [place, if_neg (Bool.not_eq_true _ ▸ positive), unit, one_mul]

/-- Patterns in total order stand in this order on the line. -/
theorem place_le_of_totalLe (le : x.totalLe y = true) : x.place ≤ y.place := by
  have keys := of_decide_eq_true le
  have xNonneg := magnitudeValue_nonneg x.magnitude
  have yNonneg := magnitudeValue_nonneg y.magnitude
  unfold orderKey at keys
  cases xSign : x.isNegative <;> cases ySign : y.isNegative <;>
    simp only [xSign, ySign, ↓reduceIte, Bool.false_eq_true] at keys
  · rw [place_of_not_isNegative xSign, place_of_not_isNegative ySign]
    exact magnitudeValue_strictMono.monotone (by omega)
  · omega
  · rw [place_of_isNegative xSign, place_of_not_isNegative ySign]
    exact (neg_nonpos.mpr xNonneg).trans yNonneg
  · rw [place_of_isNegative xSign, place_of_isNegative ySign]
    exact neg_le_neg (magnitudeValue_strictMono.monotone (by omega))

theorem totalLe_of_place_le (xSign : x.isNegative = false) (ySign : y.isNegative = false)
    (le : x.place ≤ y.place) : x.totalLe y = true := by
  rw [place_of_not_isNegative xSign, place_of_not_isNegative ySign,
    magnitudeValue_strictMono.le_iff_le] at le
  apply decide_eq_true
  unfold orderKey
  rw [if_neg (Bool.not_eq_true _ ▸ xSign), if_neg (Bool.not_eq_true _ ▸ ySign)]
  omega

theorem not_isNegative_of_place (above : 0 < x.place) : x.isNegative = false := by
  cases sign : x.isNegative with
  | false => rfl
  | true =>
      rw [place_of_isNegative sign] at above
      exact absurd above (not_lt.mpr (neg_nonpos.mpr (magnitudeValue_nonneg _)))

end Binary64

/-! ### Comparisons of floats -/

/-- An infinity is beyond everything finite. -/
theorem compare_infinity {x : UnpackedFloat} (isFinite : x.isFinite = true) :
    UnpackedFloat.compare x (.infinity .negative) = some .gt ∧
      UnpackedFloat.compare x (.infinity .positive) = some .lt ∧
      UnpackedFloat.compare (.infinity .negative) x = some .lt ∧
      UnpackedFloat.compare (.infinity .positive) x = some .gt := by
  rcases finite_cases isFinite with ⟨_, form⟩ | ⟨_, _, _, _, form⟩
  · rw [form]
    exact ⟨rfl, rfl, rfl, rfl⟩
  · rw [form]
    exact ⟨rfl, rfl, rfl, rfl⟩

section

variable {x y : Float}

theorem compare_extendedValue (xNotNaN : x.isNaN = false) (yNotNaN : y.isNaN = false) :
    UnpackedFloat.compare x.toModel.unpack y.toModel.unpack =
      some (compare (extendedValue x) (extendedValue y)) := by
  have limits (z : Float) (isFinite : z.isFinite = true) :=
    extendedValue_of_isFinite isFinite ▸ abs_lt.mp (abs_exactValue_lt isFinite)
  have ends := neg_lt_self (two_zpow_pos 1024)
  rcases finite_or_infinity xNotNaN with xFinite | ⟨xSign, xForm⟩ <;>
    rcases finite_or_infinity yNotNaN with yFinite | ⟨ySign, yForm⟩
  · rw [extendedValue_of_isFinite xFinite, extendedValue_of_isFinite yFinite]
    exact compare_exactValue xFinite yFinite
  · obtain ⟨above, below⟩ := limits x xFinite
    obtain ⟨toNegative, toPositive, _, _⟩ := compare_infinity xFinite
    rw [extendedValue_of_infinity yForm, yForm]
    cases ySign with
    | negative => rw [unit, neg_one_mul, compare_gt_iff_gt.mpr above, toNegative]
    | positive => rw [unit, one_mul, compare_lt_iff_lt.mpr below, toPositive]
  · obtain ⟨above, below⟩ := limits y yFinite
    obtain ⟨_, _, ofNegative, ofPositive⟩ := compare_infinity yFinite
    rw [extendedValue_of_infinity xForm, xForm]
    cases xSign with
    | negative => rw [unit, neg_one_mul, compare_lt_iff_lt.mpr above, ofNegative]
    | positive => rw [unit, one_mul, compare_gt_iff_gt.mpr below, ofPositive]
  · rw [extendedValue_of_infinity xForm, extendedValue_of_infinity yForm, xForm, yForm]
    cases xSign <;> cases ySign <;> simp only [unit, neg_one_mul, one_mul]
    · rw [compare_eq_iff_eq.mpr rfl]
      rfl
    · rw [compare_lt_iff_lt.mpr ends]
      rfl
    · rw [compare_gt_iff_gt.mpr ends]
      rfl
    · rw [compare_eq_iff_eq.mpr rfl]
      rfl

theorem lt_iff_compare :
    x < y ↔ UnpackedFloat.compare x.toModel.unpack y.toModel.unpack = some .lt := by
  change decide ((UnpackedFloat.compare x.toModel.unpack y.toModel.unpack == some .lt) = true) =
    true ↔ _
  rw [decide_eq_true_eq, beq_iff_eq]

theorem beq_iff_compare :
    (x == y) = true ↔ UnpackedFloat.compare x.toModel.unpack y.toModel.unpack = some .eq := by
  change (UnpackedFloat.compare x.toModel.unpack y.toModel.unpack == some .eq) = true ↔ _
  rw [beq_iff_eq]

theorem le_iff_lt_or_beq : x ≤ y ↔ x < y ∨ (x == y) = true := by
  rw [lt_iff_compare, beq_iff_compare]
  change decide ((UnpackedFloat.compare x.toModel.unpack y.toModel.unpack).any (·.isLE) = true) =
    true ↔ _
  rw [decide_eq_true_eq]
  rcases UnpackedFloat.compare x.toModel.unpack y.toModel.unpack with _ | _ | _ | _ <;> decide

theorem unpack_of_isNaN (isNaN : x.isNaN = true) : x.toModel.unpack = .notANumber := by
  change x.toModel.unpack.isNaN = true at isNaN
  cases form : x.toModel.unpack with
  | notANumber => rfl
  | _ =>
      rw [form] at isNaN
      cases isNaN

/-- What is no number has no place among numbers. -/
theorem compare_of_isNaN (isNaN : x.isNaN = true ∨ y.isNaN = true) :
    UnpackedFloat.compare x.toModel.unpack y.toModel.unpack = none := by
  rcases isNaN with xNaN | yNaN
  · rw [unpack_of_isNaN xNaN]
    rfl
  · rw [unpack_of_isNaN yNaN]
    cases x.toModel.unpack <;> rfl

theorem lt_iff_extendedValue_lt (xNotNaN : x.isNaN = false) (yNotNaN : y.isNaN = false) :
    x < y ↔ extendedValue x < extendedValue y := by
  rw [lt_iff_compare, compare_extendedValue xNotNaN yNotNaN, Option.some_inj]
  exact compare_lt_iff_lt

theorem beq_iff_extendedValue_eq (xNotNaN : x.isNaN = false) (yNotNaN : y.isNaN = false) :
    (x == y) = true ↔ extendedValue x = extendedValue y := by
  rw [beq_iff_compare, compare_extendedValue xNotNaN yNotNaN, Option.some_inj]
  exact compare_eq_iff_eq

theorem le_iff_extendedValue_le (xNotNaN : x.isNaN = false) (yNotNaN : y.isNaN = false) :
    x ≤ y ↔ extendedValue x ≤ extendedValue y := by
  rw [le_iff_lt_or_beq, lt_iff_extendedValue_lt xNotNaN yNotNaN,
    beq_iff_extendedValue_eq xNotNaN yNotNaN, le_iff_lt_or_eq]

theorem notNaN_of_lt (less : x < y) : x.isNaN = false ∧ y.isNaN = false := by
  rw [← Bool.not_eq_true, ← Bool.not_eq_true, ← not_or]
  intro isNaN
  rw [lt_iff_compare, compare_of_isNaN isNaN] at less
  cases less

theorem notNaN_of_le (le : x ≤ y) : x.isNaN = false ∧ y.isNaN = false := by
  rw [← Bool.not_eq_true, ← Bool.not_eq_true, ← not_or]
  intro isNaN
  rw [le_iff_lt_or_beq, lt_iff_compare, beq_iff_compare, compare_of_isNaN isNaN] at le
  rcases le with impossible | impossible <;> cases impossible

theorem le_trans_of_float {z : Float} (first : x ≤ y) (second : y ≤ z) : x ≤ z := by
  obtain ⟨xNotNaN, yNotNaN⟩ := notNaN_of_le first
  have zNotNaN := (notNaN_of_le second).2
  rw [le_iff_extendedValue_le xNotNaN yNotNaN] at first
  rw [le_iff_extendedValue_le yNotNaN zNotNaN] at second
  exact (le_iff_extendedValue_le xNotNaN zNotNaN).mpr (first.trans second)

theorem not_le_iff_lt (xNotNaN : x.isNaN = false) (yNotNaN : y.isNaN = false) :
    ¬x ≤ y ↔ y < x := by
  rw [le_iff_extendedValue_le xNotNaN yNotNaN, lt_iff_extendedValue_lt yNotNaN xNotNaN, not_le]

theorem beq_of_isNaN (isNaN : x.isNaN = true) : (x == y) = false := by
  rw [← Bool.not_eq_true, beq_iff_compare, compare_of_isNaN (.inl isNaN)]
  exact fun impossible => nomatch impossible

end

namespace Binary64

variable {x y : Binary64}

theorem toFloat_lt_iff (xNotNaN : x.isNaN = false) (yNotNaN : y.isNaN = false) :
    x.toFloat < y.toFloat ↔ x.place < y.place := by
  rw [lt_iff_extendedValue_lt (x.isNaN_toFloat.trans xNotNaN) (y.isNaN_toFloat.trans yNotNaN),
    extendedValue_toFloat xNotNaN, extendedValue_toFloat yNotNaN]

theorem toFloat_beq_iff (xNotNaN : x.isNaN = false) (yNotNaN : y.isNaN = false) :
    (x.toFloat == y.toFloat) = true ↔ x.place = y.place := by
  rw [beq_iff_extendedValue_eq (x.isNaN_toFloat.trans xNotNaN) (y.isNaN_toFloat.trans yNotNaN),
    extendedValue_toFloat xNotNaN, extendedValue_toFloat yNotNaN]

theorem place_eq_zero_iff : x.place = 0 ↔ x.magnitude = 0 := by
  have atZero : magnitudeValue x.magnitude = 0 ↔ x.magnitude = 0 := by
    rw [← magnitudeValue_zero, magnitudeValue_strictMono.injective.eq_iff]
  cases sign : x.isNegative with
  | false => rw [place_of_not_isNegative sign, atZero]
  | true => rw [place_of_isNegative sign, neg_eq_zero, atZero]

/-- What counts as zero is what a comparison with zero finds, whatever its sign. -/
theorem isZero_iff : x.isZero = true ↔ (x.toFloat == 0) = true := by
  have isZero : x.isZero = true ↔ x.magnitude = 0 := beq_iff_eq
  rw [isZero]
  cases isNaN : x.isNaN with
  | false =>
      obtain ⟨zeroFinite, zeroValue⟩ : (0 : Float).isFinite = true ∧ exactValue 0 = (0 : ℕ) :=
        ofNat_exact (by norm_num)
      rw [beq_iff_extendedValue_eq (x.isNaN_toFloat.trans isNaN) (isNaN_of_isFinite zeroFinite),
        extendedValue_toFloat isNaN, extendedValue_of_isFinite zeroFinite, zeroValue, Nat.cast_zero,
        place_eq_zero_iff]
  | true =>
      have beyond : infinityMagnitude < x.magnitude := of_decide_eq_true isNaN
      refine iff_of_false (Nat.ne_zero_of_lt beyond) ?_
      rw [beq_of_isNaN (x.isNaN_toFloat.trans isNaN)]
      exact Bool.false_ne_true

end Binary64

end TikzChart
