import TikzChart.Proofs.Rounding.FloatArithmetic

/-!
The order of floats with the infinities among them. An infinity counts as the first power of two
that no finite float reaches, so that floats are ordered as rationals are. Results that overflow
keep their place in this order.
-/

set_option autoImplicit false

namespace TikzChart

open Float.Model Float.Model.UnpackedFloat Unpacked

def Unpacked.extended : UnpackedFloat → ℚ
  | .infinity sign => unit sign * 2 ^ (1024 : ℤ)
  | form => value form

/-- The exact value of a float that may be infinite. -/
def extendedValue (x : Float) : ℚ := extended x.toModel.unpack

/-- A rounded number, or the nearest infinity if that is too large. -/
def clamped (value : ℚ) : ℚ := max (-2 ^ (1024 : ℤ)) (min (2 ^ (1024 : ℤ)) (rounded value))

theorem clamped_mono {first second : ℚ} (le : first ≤ second) : clamped first ≤ clamped second :=
  max_le_max (le_refl _) (min_le_min (le_refl _) (rounded_mono le))

variable {x y : Float}

/-! ### Infinities -/

theorem extendedValue_of_isFinite (isFinite : x.isFinite = true) :
    extendedValue x = exactValue x := by
  rw [exactValue_eq isFinite, extendedValue]
  rcases finite_cases (show x.toModel.unpack.isFinite = true from isFinite) with
    ⟨sign, form⟩ | ⟨sign, mantissa, exponent, positive, form⟩
  · rw [form]
    rfl
  · rw [form]
    rfl

theorem extendedValue_of_infinity {sign : Sign} (form : x.toModel.unpack = .infinity sign) :
    extendedValue x = unit sign * 2 ^ (1024 : ℤ) := by
  rw [extendedValue, form]
  rfl

theorem isNaN_of_infinity {sign : Sign} (form : x.toModel.unpack = .infinity sign) :
    x.isNaN = false := congrArg UnpackedFloat.isNaN form

theorem finite_or_infinity (notNaN : x.isNaN = false) :
    x.isFinite = true ∨ ∃ sign, x.toModel.unpack = .infinity sign := by
  change x.toModel.unpack.isNaN = false at notNaN
  change x.toModel.unpack.isFinite = true ∨ _
  cases form : x.toModel.unpack with
  | infinity sign => exact .inr ⟨sign, rfl⟩
  | notANumber =>
      rw [form] at notNaN
      cases notNaN
  | zero sign => exact .inl rfl
  | finite sign mantissa exponent positive => exact .inl rfl

/-! ### Comparisons -/

theorem le_of_compare (isLE : (UnpackedFloat.compare x.toModel.unpack y.toModel.unpack).any
    (·.isLE) = true) : x ≤ y := by
  change decide (_ = true) = true
  rw [decide_eq_true_eq]
  exact isLE

theorem le_infinity (xNotNaN : x.isNaN = false) (form : y.toModel.unpack = .infinity .positive) :
    x ≤ y := by
  apply le_of_compare
  rw [form]
  change x.toModel.unpack.isNaN = false at xNotNaN
  cases xForm : x.toModel.unpack with
  | infinity sign => cases sign <;> rfl
  | notANumber =>
      rw [xForm] at xNotNaN
      cases xNotNaN
  | zero sign => rfl
  | finite sign mantissa exponent positive => rfl

theorem infinity_le (form : x.toModel.unpack = .infinity .negative) (yNotNaN : y.isNaN = false) :
    x ≤ y := by
  apply le_of_compare
  rw [form]
  change y.toModel.unpack.isNaN = false at yNotNaN
  cases yForm : y.toModel.unpack with
  | infinity sign => cases sign <;> rfl
  | notANumber =>
      rw [yForm] at yNotNaN
      cases yNotNaN
  | zero sign => rfl
  | finite sign mantissa exponent positive => rfl

/-- Of two floats in order, both are finite or one is the infinity at its end. -/
theorem extendedValue_cases (xNotNaN : x.isNaN = false) (yNotNaN : y.isNaN = false)
    (le : extendedValue x ≤ extendedValue y) :
    x.isFinite = true ∧ y.isFinite = true ∨ x.toModel.unpack = .infinity .negative ∨
      y.toModel.unpack = .infinity .positive := by
  have limits (z : Float) (isFinite : z.isFinite = true) :=
    extendedValue_of_isFinite isFinite ▸ abs_lt.mp (abs_exactValue_lt isFinite)
  rcases finite_or_infinity xNotNaN with xFinite | ⟨xSign, xForm⟩
  · rcases finite_or_infinity yNotNaN with yFinite | ⟨ySign, yForm⟩
    · exact .inl ⟨xFinite, yFinite⟩
    · cases ySign with
      | positive => exact .inr (.inr yForm)
      | negative =>
          rw [extendedValue_of_infinity yForm, unit, neg_one_mul] at le
          exact absurd (limits x xFinite).1 (not_lt.mpr le)
  · cases xSign with
    | negative => exact .inr (.inl xForm)
    | positive =>
        rw [extendedValue_of_infinity xForm, unit, one_mul] at le
        rcases finite_or_infinity yNotNaN with yFinite | ⟨ySign, yForm⟩
        · exact absurd (limits y yFinite).2 (not_lt.mpr le)
        · cases ySign with
          | positive => exact .inr (.inr yForm)
          | negative =>
              rw [extendedValue_of_infinity yForm, unit, neg_one_mul] at le
              exact absurd (neg_lt_self (two_zpow_pos 1024)) (not_lt.mpr le)

theorem le_of_extendedValue_le (xNotNaN : x.isNaN = false) (yNotNaN : y.isNaN = false)
    (le : extendedValue x ≤ extendedValue y) : x ≤ y := by
  rcases extendedValue_cases xNotNaN yNotNaN le with ⟨xFinite, yFinite⟩ | xForm | yForm
  · rw [extendedValue_of_isFinite xFinite, extendedValue_of_isFinite yFinite] at le
    exact (le_iff_exactValue_le xFinite yFinite).mpr le
  · exact infinity_le xForm yNotNaN
  · exact le_infinity xNotNaN yForm

/-! ### Results that may overflow -/

structure RoundsTo (x : Float) (value : ℚ) : Prop where
  notNaN : x.isNaN = false
  extendedValue_eq : extendedValue x = clamped value

theorem RoundsTo.le {first second : ℚ} (xRounds : RoundsTo x first) (yRounds : RoundsTo y second)
    (le : first ≤ second) : x ≤ y := by
  apply le_of_extendedValue_le xRounds.notNaN yRounds.notNaN
  rw [xRounds.extendedValue_eq, yRounds.extendedValue_eq]
  exact clamped_mono le

theorem clamped_of_small {value : ℚ} (small : |rounded value| < 2 ^ (1024 : ℤ)) :
    clamped value = rounded value := by
  obtain ⟨below, above⟩ := abs_lt.mp small
  rw [clamped, min_eq_right above.le, max_eq_right below.le]

theorem clamped_of_large {value : ℚ} (sign : Sign) {magnitude : ℚ}
    (large : 2 ^ (1024 : ℤ) ≤ magnitude) (isRounded : rounded value = unit sign * magnitude) :
    clamped value = unit sign * 2 ^ (1024 : ℤ) := by
  have positive := two_zpow_pos 1024
  unfold clamped
  cases sign with
  | positive =>
      rw [isRounded, unit, one_mul, one_mul, min_eq_left large,
        max_eq_right (neg_le_self positive.le)]
  | negative =>
      rw [isRounded, unit, neg_one_mul, neg_one_mul,
        min_eq_right ((neg_nonpos.mpr (positive.le.trans large)).trans positive.le),
        max_eq_left (neg_le_neg large)]

theorem roundsTo_pack {unpacked : UnpackedFloat} {value : ℚ} (rounds : Rounds unpacked value) :
    RoundsTo (.ofModel (.pack unpacked)) value := by
  cases isRounding_pack rounds with
  | finite isFinite same small =>
      refine ⟨isNaN_of_isFinite isFinite, ?_⟩
      rw [extendedValue_of_isFinite isFinite, same, clamped_of_small small]
  | infinite isInf _ =>
      -- Only a number whose exponent has no room packs to an infinity.
      obtain ⟨isFinite, canonical, isValue⟩ := rounds
      have noRoom : ¬Fits unpacked := by
        intro fits
        have packedFinite : (Float.ofModel (.pack unpacked)).isFinite = true :=
          (congrArg UnpackedFloat.isFinite (unpack_ofModel_pack canonical fits)).trans isFinite
        exact absurd packedFinite (by simp [isFinite_of_isInf isInf])
      rcases finite_cases isFinite with ⟨sign, rfl⟩ | ⟨sign, mantissa, exponent, positive, rfl⟩
      · exact absurd trivial noRoom
      · have beyond : 971 < exponent := not_le.mp noRoom
        have form : (Float.ofModel (.pack (.finite sign mantissa exponent positive))).toModel.unpack =
            .infinity sign := unpack_pack_large sign positive beyond
        refine ⟨isNaN_of_infinity form, ?_⟩
        rw [extendedValue_of_infinity form,
          clamped_of_large sign (limit_le_of_large canonical beyond) isValue.symm]

theorem roundsTo_add (xFinite : x.isFinite = true) (yFinite : y.isFinite = true) :
    RoundsTo (x + y) (exactValue x + exactValue y) := by
  rw [exactValue_eq xFinite, exactValue_eq yFinite]
  exact roundsTo_pack (add_rounds xFinite yFinite (canonical_unpack _).1 (canonical_unpack _).1)

theorem roundsTo_mul (xFinite : x.isFinite = true) (yFinite : y.isFinite = true) :
    RoundsTo (x * y) (exactValue x * exactValue y) := by
  rw [exactValue_eq xFinite, exactValue_eq yFinite]
  exact roundsTo_pack (mul_rounds xFinite yFinite (canonical_unpack _).1 (canonical_unpack _).1)

theorem roundsTo_div (xFinite : x.isFinite = true) (yFinite : y.isFinite = true)
    (nonzero : exactValue y ≠ 0) : RoundsTo (x / y) (exactValue x / exactValue y) := by
  rw [exactValue_eq yFinite] at nonzero
  rw [exactValue_eq xFinite, exactValue_eq yFinite]
  exact roundsTo_pack (div_rounds xFinite yFinite nonzero)

theorem add_infinity (xFinite : x.isFinite = true) {sign : Sign}
    (form : y.toModel.unpack = .infinity sign) : (x + y).toModel.unpack = .infinity sign := by
  have sum : UnpackedFloat.add Format.binary64 x.toModel.unpack y.toModel.unpack =
      .infinity sign := by
    rcases finite_cases (show x.toModel.unpack.isFinite = true from xFinite) with
      ⟨_, xForm⟩ | ⟨_, _, _, _, xForm⟩ <;> rw [xForm, form] <;> rfl
  exact (congrArg (fun form => (Float.ofModel (.pack form)).toModel.unpack) sum).trans
    (unpack_pack_infinity sign)

/-- An infinity stays what it is under a positive divisor. -/
theorem div_infinity {sign : Sign}
    (form : x.toModel.unpack = .infinity sign) (yFinite : y.isFinite = true)
    (positive : 0 < exactValue y) : (x / y).toModel.unpack = .infinity sign := by
  have quotient : UnpackedFloat.div Format.binary64 x.toModel.unpack y.toModel.unpack =
      .infinity sign := by
    rw [exactValue_eq yFinite] at positive
    rcases finite_cases (show y.toModel.unpack.isFinite = true from yFinite) with
      ⟨ySign, yForm⟩ | ⟨ySign, mantissa, exponent, mantissaPos, yForm⟩
    · rw [yForm, value_zero] at positive
      exact absurd positive (lt_irrefl 0)
    · rw [yForm, value_finite] at positive
      rw [form, yForm]
      cases ySign with
      | positive => cases sign <;> rfl
      | negative =>
          rw [unit, neg_one_mul] at positive
          have magnitudePos := magnitude_pos mantissaPos exponent
          exact absurd positive (not_lt.mpr (neg_nonpos.mpr magnitudePos.le))
  exact (congrArg (fun form => (Float.ofModel (.pack form)).toModel.unpack) quotient).trans
    (unpack_pack_infinity sign)

/-- Adding to a finite float gives a number unless what is added is none. -/
theorem add_isNaN (xFinite : x.isFinite = true) (yNotNaN : y.isNaN = false) :
    (x + y).isNaN = false := by
  rcases finite_or_infinity yNotNaN with yFinite | ⟨sign, form⟩
  · exact (roundsTo_add xFinite yFinite).notNaN
  · exact isNaN_of_infinity (add_infinity xFinite form)

theorem add_le_add_of_isFinite {offset : Float} (offsetFinite : offset.isFinite = true)
    (xNotNaN : x.isNaN = false) (yNotNaN : y.isNaN = false)
    (le : extendedValue x ≤ extendedValue y) : offset + x ≤ offset + y := by
  rcases extendedValue_cases xNotNaN yNotNaN le with ⟨xFinite, yFinite⟩ | xForm | yForm
  · rw [extendedValue_of_isFinite xFinite, extendedValue_of_isFinite yFinite] at le
    exact (roundsTo_add offsetFinite xFinite).le (roundsTo_add offsetFinite yFinite)
      (add_le_add_right le _)
  · exact infinity_le (add_infinity offsetFinite xForm) (add_isNaN offsetFinite yNotNaN)
  · exact le_infinity (add_isNaN offsetFinite xNotNaN) (add_infinity offsetFinite yForm)

end TikzChart
