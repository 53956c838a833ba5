import TikzChart.Proofs.Rounding.Unpacked

/-!
From canonical numbers to bit patterns and back. A pattern always holds a canonical number; a
canonical number is found again in its pattern unless its exponent is too large, and then infinity
is found.
-/

set_option autoImplicit false

namespace TikzChart.Unpacked

open Float.Model Float.Model.UnpackedFloat

/-- The exponent has room in a pattern. -/
def Fits : UnpackedFloat → Prop
  | .finite _ _ exponent _ => exponent ≤ 971
  | _ => True

/-! ### Negation -/

section

variable {unpacked : UnpackedFloat}

theorem isFinite_neg : unpacked.neg.isFinite = unpacked.isFinite := by
  cases unpacked <;> rfl

theorem value_neg : value unpacked.neg = -value unpacked := by
  cases unpacked with
  | finite sign mantissa exponent positive =>
      change unit (-sign) * _ = -(unit sign * _)
      rw [unit_neg, neg_mul]
  | _ => exact neg_zero.symm

theorem IsCanonical.neg (canonical : IsCanonical unpacked) : IsCanonical unpacked.neg := by
  cases unpacked with
  | finite sign mantissa exponent positive => exact canonical
  | _ => trivial

theorem Fits.neg (fits : Fits unpacked) : Fits unpacked.neg := by
  cases unpacked with
  | finite sign mantissa exponent positive => exact fits
  | _ => trivial

end

/-! ### The fields of a pattern -/

theorem toNat_implicit (mantissa : BitVec 52) :
    (1#1 ++ mantissa).toNat = 2 ^ 52 + mantissa.toNat := by
  rw [BitVec.toNat_append, ← Nat.shiftLeft_add_eq_or_of_lt mantissa.isLt]
  rfl

theorem field_ne {field : ℕ} (value : ℕ) (small : field < 2 ^ 11) (other : value < 2 ^ 11)
    (ne : field ≠ value) : BitVec.ofNat 11 field ≠ BitVec.ofNat 11 value := by
  intro same
  have numbers := congrArg BitVec.toNat same
  rw [BitVec.toNat_ofNat, BitVec.toNat_ofNat, Nat.mod_eq_of_lt small, Nat.mod_eq_of_lt other]
    at numbers
  exact ne numbers

/-- A number with 53 places is written without the first of them. -/
theorem unpack_normal (sign : Sign) {mantissa field : ℕ} (large : 2 ^ 52 ≤ mantissa)
    (short : mantissa < 2 ^ 53) (positive : 0 < field) (small : field < 2047) :
    UnpackedFloat.unpack Format.binary64
        (packComponents Format.binary64 sign (.ofNat _ field) (.ofNat _ mantissa)) =
      .finite sign mantissa (field - 1075) (by omega) := by
  have notOnes : BitVec.ofNat 11 field ≠ -1#11 :=
    field_ne 2047 (by omega) (by omega) (by omega)
  have notZero : BitVec.ofNat 11 field ≠ 0#11 :=
    field_ne 0 (by omega) (by omega) (by omega)
  have restored : (1#1 ++ BitVec.ofNat 52 mantissa).toNat = mantissa := by
    rw [toNat_implicit, BitVec.toNat_ofNat]
    omega
  have exponent : (BitVec.ofNat 11 field).toNat = field := by
    rw [BitVec.toNat_ofNat]
    omega
  unfold UnpackedFloat.unpack
  simp only [unpackMantissa_packComponents, unpackExponent_packComponents,
    unpackSign_packComponents, Sign.ofBitVec_toBitVec, exponent]
  rw [if_neg notOnes, if_neg notZero]
  simp only [restored]
  rfl

theorem unpack_subnormal (sign : Sign) {mantissa : ℕ} (positive : 0 < mantissa)
    (short : mantissa < 2 ^ 52) :
    UnpackedFloat.unpack Format.binary64
        (packComponents Format.binary64 sign 0#_ (.ofNat _ mantissa)) =
      .finite sign mantissa (-1074) positive := by
  have restored : (BitVec.ofNat 52 mantissa).toNat = mantissa := by
    rw [BitVec.toNat_ofNat]
    omega
  have nonzero : BitVec.ofNat 52 mantissa ≠ 0#52 := by
    intro zero
    have none := congrArg BitVec.toNat zero
    rw [restored, BitVec.toNat_zero] at none
    omega
  unfold UnpackedFloat.unpack
  simp only [unpackMantissa_packComponents, unpackExponent_packComponents,
    unpackSign_packComponents, Sign.ofBitVec_toBitVec]
  rw [if_neg (by decide), if_pos trivial, dif_neg nonzero]
  simp only [restored]
  rfl

/-! ### There and back -/

theorem unpack_pack_finite (sign : Sign) {mantissa : ℕ} {exponent : ℤ} (positive : 0 < mantissa)
    (places : HasPlaces mantissa exponent) (fits : exponent ≤ 971) :
    UnpackedFloat.unpack Format.binary64
        (UnpackedFloat.pack Format.binary64 (.finite sign mantissa exponent positive)) =
      .finite sign mantissa exponent positive := by
  have inside := places.inside
  have short := places.short
  have bias : (exponent + Format.binary64.exponentBias + (52 : ℕ)).toNat =
      (exponent + 1075).toNat := by
    rw [show (Format.binary64.exponentBias : ℤ) = 1023 by rfl]
    omega
  unfold UnpackedFloat.pack
  dsimp only
  rw [bias, if_neg (by omega), show Format.binary64.mantissaBits = 53 by rfl]
  by_cases large : 2 ^ 52 ≤ mantissa
  · have log : mantissa.log2 + 1 = 53 := by
      have low := (Nat.le_log2 positive.ne').mpr large
      have high := (Nat.log2_lt positive.ne').mpr short
      omega
    rw [if_pos log, unpack_normal sign large short (by omega) (by omega)]
    congr 1
    omega
  · have log : mantissa.log2 + 1 ≠ 53 := by
      have high := (Nat.log2_lt positive.ne').mpr (not_le.mp large)
      omega
    have last := places.full.resolve_left large
    subst last
    rw [if_neg log, unpack_subnormal sign positive (not_le.mp large)]

theorem unpack_pack_infinity (sign : Sign) :
    UnpackedFloat.unpack Format.binary64
        (UnpackedFloat.pack Format.binary64 (.infinity sign)) = .infinity sign := by
  cases sign <;> rfl

/-- A canonical number with room in a pattern is found again. -/
theorem unpack_pack {unpacked : UnpackedFloat} (canonical : IsCanonical unpacked)
    (fits : Fits unpacked) :
    UnpackedFloat.unpack Format.binary64 (UnpackedFloat.pack Format.binary64 unpacked) =
      unpacked := by
  cases unpacked with
  | infinity sign => exact unpack_pack_infinity sign
  | notANumber => rfl
  | zero sign => cases sign <;> rfl
  | finite sign mantissa exponent positive =>
      exact unpack_pack_finite sign positive canonical fits

/-- Without room a number becomes infinite. -/
theorem unpack_pack_large (sign : Sign) {mantissa : ℕ} {exponent : ℤ} (positive : 0 < mantissa)
    (large : 971 < exponent) :
    UnpackedFloat.unpack Format.binary64
        (UnpackedFloat.pack Format.binary64 (.finite sign mantissa exponent positive)) =
      .infinity sign := by
  have noRoom : 2 ^ 11 ≤ (exponent + Format.binary64.exponentBias + (52 : ℕ)).toNat + 1 := by
    rw [show (Format.binary64.exponentBias : ℤ) = 1023 by rfl]
    omega
  have overflows : UnpackedFloat.pack Format.binary64 (.finite sign mantissa exponent positive) =
      packedInfinity Format.binary64 sign := by
    unfold UnpackedFloat.pack
    exact if_pos noRoom
  rw [overflows]
  exact unpack_pack_infinity sign

/-! ### What a pattern holds -/

section

variable (bits : BitVec 64)

theorem toNat_unpackMantissa :
    (@unpackMantissa Format.binary64 bits).toNat = bits.toNat % 2 ^ 52 := by
  unfold unpackMantissa
  rw [BitVec.toNat_cast, BitVec.extractLsb_toNat, Nat.shiftRight_zero]
  rfl

theorem toNat_unpackExponent :
    (@unpackExponent Format.binary64 bits).toNat = bits.toNat / 2 ^ 52 % 2 ^ 11 := by
  unfold unpackExponent
  rw [BitVec.toNat_cast, BitVec.extractLsb_toNat, Nat.shiftRight_eq_div_pow]
  rfl

theorem sign_unpackSign :
    Sign.ofBitVec (@unpackSign Format.binary64 bits) =
      if 2 ^ 63 ≤ bits.toNat then .negative else .positive := by
  have size := bits.isLt
  have top : (@unpackSign Format.binary64 bits).toNat = bits.toNat / 2 ^ 63 % 2 := by
    unfold unpackSign
    rw [BitVec.toNat_cast, BitVec.extractLsb_toNat, Nat.shiftRight_eq_div_pow]
    rfl
  unfold Sign.ofBitVec
  by_cases negative : 2 ^ 63 ≤ bits.toNat
  · rw [if_pos negative, if_neg]
    intro zero
    rw [zero, BitVec.toNat_zero] at top
    omega
  · rw [if_neg negative, if_pos]
    apply BitVec.eq_of_toNat_eq
    rw [top, BitVec.toNat_zero]
    omega

theorem field_of_zero (zero : @unpackExponent Format.binary64 bits = 0#11) :
    bits.toNat / 2 ^ 52 % 2 ^ 11 = 0 := by
  rw [← toNat_unpackExponent, zero]
  rfl

theorem field_of_nonzero (nonzero : @unpackExponent Format.binary64 bits ≠ 0#11)
    (notOnes : @unpackExponent Format.binary64 bits ≠ -1#11) :
    0 < bits.toNat / 2 ^ 52 % 2 ^ 11 ∧ bits.toNat / 2 ^ 52 % 2 ^ 11 < 2047 := by
  have field := toNat_unpackExponent bits
  have notZero : bits.toNat / 2 ^ 52 % 2 ^ 11 ≠ 0 := fun same =>
    nonzero (BitVec.eq_of_toNat_eq (field.trans same))
  have notLast : bits.toNat / 2 ^ 52 % 2 ^ 11 ≠ 2047 := fun same =>
    notOnes (BitVec.eq_of_toNat_eq (field.trans same))
  omega

theorem canonical_unpack :
    IsCanonical (UnpackedFloat.unpack Format.binary64 bits) ∧
      Fits (UnpackedFloat.unpack Format.binary64 bits) := by
  have mantissa := toNat_unpackMantissa bits
  have exponent := toNat_unpackExponent bits
  unfold UnpackedFloat.unpack
  dsimp only
  rw [show (Format.binary64.exponentBias : ℤ) = 1023 by rfl]
  split
  · split <;> exact ⟨trivial, trivial⟩
  · split
    · next zero =>
        have field := field_of_zero bits zero
        split
        · exact ⟨trivial, trivial⟩
        · change HasPlaces _ _ ∧ _ ≤ _
          rw [exponent, field, mantissa]
          exact ⟨⟨by omega, by omega, .inr (by omega)⟩, by omega⟩
    · next notOnes nonzero =>
        have field := field_of_nonzero bits nonzero notOnes
        change HasPlaces _ _ ∧ _ ≤ _
        rw [exponent, toNat_implicit, mantissa]
        exact ⟨⟨by omega, by omega, .inl (by omega)⟩, by omega⟩

theorem value_unpack (isFinite : (UnpackedFloat.unpack Format.binary64 bits).isFinite = true) :
    value (UnpackedFloat.unpack Format.binary64 bits) =
      unit (if 2 ^ 63 ≤ bits.toNat then .negative else .positive) *
        if bits.toNat / 2 ^ 52 % 2 ^ 11 = 0 then
          ((bits.toNat % 2 ^ 52 : ℕ) : ℚ) * 2 ^ (-1074 : ℤ)
        else ((2 ^ 52 + bits.toNat % 2 ^ 52 : ℕ) : ℚ) *
          2 ^ (((bits.toNat / 2 ^ 52 % 2 ^ 11 : ℕ) : ℤ) - 1075) := by
  have mantissa := toNat_unpackMantissa bits
  have exponent := toNat_unpackExponent bits
  unfold UnpackedFloat.unpack at isFinite ⊢
  dsimp only at isFinite ⊢
  rw [show (Format.binary64.exponentBias : ℤ) = 1023 by rfl]
  by_cases ones : @unpackExponent Format.binary64 bits = -1#11
  · rw [if_pos ones] at isFinite
    split at isFinite <;> cases isFinite
  · rw [if_neg ones]
    by_cases zero : @unpackExponent Format.binary64 bits = 0#11
    · have field := field_of_zero bits zero
      rw [if_pos field, if_pos zero, ← sign_unpackSign]
      split
      · next none =>
          rw [← mantissa, none]
          simp [value]
      · rw [value, exponent, field, mantissa]
        rfl
    · have field := field_of_nonzero bits zero ones
      rw [if_neg field.1.ne', if_neg zero, value, sign_unpackSign, toNat_implicit, exponent,
        mantissa]
      rfl

end

end TikzChart.Unpacked
