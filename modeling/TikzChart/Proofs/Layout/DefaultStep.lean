import TikzChart.Proofs.Layout.Scale
import TikzChart.Proofs.Layout.TicCount

/-!
A step of a tenth. When a range takes up eighty of a hundred, steps of a tenth become the more the
wider the range is, whatever is lost in rounding. So one width decides whether they are too many,
and a look at eighty and at the float before it finds that width.
-/

set_option autoImplicit false

namespace TikzChart

open Float.Model Float.Model.UnpackedFloat

/-! ### Floors -/

theorem ofNat_le_floor_iff {n : ℕ} (small : n < 2 ^ 53) {x : Float} :
    Float.ofNat n ≤ Whole.floor x ↔ Float.ofNat n ≤ x := by
  by_cases isFinite : x.isFinite = true
  · obtain ⟨boundFinite, isBound⟩ := ofNat_exact small
    obtain ⟨floorFinite, isFloor⟩ := floor_exact isFinite
    rw [le_iff_exactValue_le boundFinite floorFinite, le_iff_exactValue_le boundFinite isFinite,
      isBound, isFloor]
    exact_mod_cast (Int.le_floor (z := n) (a := exactValue x))
  · rw [floor_of_not_isFinite isFinite]

/-! ### Tenths in exact numbers -/

/-- A tenth as a float has it. -/
def tenth : ℚ := 7205759403792794 * 2 ^ (-56 : ℤ)

theorem tenth_exact : (0.1 : Float).isFinite = true ∧ exactValue 0.1 = tenth := by
  have form : Dyadic.ofFloat 0.1 = ⟨false, 7205759403792794, -56⟩ := by decide +kernel
  refine ⟨by decide +kernel, ?_⟩
  rw [exactValue, form, Dyadic.value_of_not_negative rfl, tenth, Nat.cast_ofNat]

theorem tenth_ge : 2 ^ (-4 : ℤ) ≤ tenth := by
  unfold tenth
  norm_num

theorem tenth_nonneg : 0 ≤ tenth := (two_zpow_pos _).le.trans tenth_ge

theorem tenth_le : tenth ≤ 1 := by
  unfold tenth
  norm_num

/-- The length of a step when a range of the given width takes up eighty. -/
def tenthLength (width : ℚ) : ℚ := rounded (rounded (80 / width) * tenth)

section

variable {width : ℚ}

theorem factor_large (nonzero : width ≠ 0) (small : |width| < 2 ^ (1024 : ℤ)) :
    2 ^ (-1018 : ℤ) ≤ |rounded (80 / width)| := by
  rw [abs_rounded, abs_div]
  refine le_rounded (onGrid_two_zpow (by norm_num)) ?_
  rw [le_div_iff₀ (abs_pos.mpr nonzero)]
  calc
    _ ≤ (2 : ℚ) ^ (-1018 : ℤ) * 2 ^ (1024 : ℤ) :=
      mul_le_mul_of_nonneg_left small.le (two_zpow_pos _).le
    _ = 2 ^ (6 : ℤ) := by rw [← two_zpow_add]; rfl
    _ ≤ |80| := by norm_num

theorem tenthLength_large (nonzero : width ≠ 0) (small : |width| < 2 ^ (1024 : ℤ)) :
    2 ^ (-1022 : ℤ) ≤ |tenthLength width| := by
  unfold tenthLength
  rw [abs_rounded, abs_mul, abs_of_nonneg tenth_nonneg]
  refine le_rounded (onGrid_two_zpow (by norm_num)) ?_
  rw [show (-1022 : ℤ) = -1018 + -4 by rfl, two_zpow_add]
  exact mul_le_mul (factor_large nonzero small) tenth_ge (two_zpow_pos _).le (abs_nonneg _)

theorem tenthLength_pos (positive : 0 < width) (small : width < 2 ^ (1024 : ℤ)) :
    0 < tenthLength width := by
  have large := tenthLength_large positive.ne' (by rwa [abs_of_pos positive])
  have nonneg : 0 ≤ tenthLength width :=
    rounded_nonneg (mul_nonneg (rounded_nonneg (by positivity)) tenth_nonneg)
  rw [abs_of_nonneg nonneg] at large
  exact (two_zpow_pos _).trans_le large

theorem tenthLength_nonpos (negative : width < 0) : tenthLength width ≤ 0 :=
  rounded_le onGrid_zero (mul_nonpos_of_nonpos_of_nonneg
    (rounded_le onGrid_zero (div_nonpos_of_nonneg_of_nonpos (by norm_num) negative.le))
    tenth_nonneg)

theorem tenthLength_anti {wider : ℚ} (positive : 0 < width) (le : width ≤ wider) :
    tenthLength wider ≤ tenthLength width :=
  rounded_mono (mul_le_mul_of_nonneg_right
    (rounded_mono (div_le_div_of_nonneg_left (by norm_num) positive le))
    tenth_nonneg)

end

/-! ### Tenths in floats -/

/-- How often a tenth fits into a hundred when a range of the given width takes up eighty. -/
def tenths (width : Float) : Float := 100 / (80 / width * 0.1)

section

variable {width : Float}

theorem tenths_roundsTo (widthFinite : width.isFinite = true)
    (factorFinite : (80 / width).isFinite = true) :
    RoundsTo (tenths width) (100 / tenthLength (exactValue width)) := by
  obtain ⟨eightyFinite, isEighty⟩ :
    (80 : Float).isFinite = true ∧ exactValue 80 = (80 : ℕ) := ofNat_exact (by norm_num)
  obtain ⟨hundredFinite, isHundred⟩ :
    (100 : Float).isFinite = true ∧ exactValue 100 = (100 : ℕ) := ofNat_exact (by norm_num)
  obtain ⟨tenthFinite, isTenth⟩ := tenth_exact
  have nonzero := exactValue_ne_zero_of_div factorFinite widthFinite
  have factor := (isRounding_div eightyFinite widthFinite nonzero).exactValue_eq factorFinite
  rw [isEighty, Nat.cast_ofNat] at factor
  have product := isRounding_mul factorFinite tenthFinite
  rw [factor, isTenth] at product
  -- a tenth of the factor is no larger than the factor
  have productFinite : (80 / width * 0.1).isFinite = true := by
    refine product.isFinite_of_lt ?_
    have shorter : |rounded (80 / exactValue width) * tenth| ≤ |exactValue (80 / width)| := by
      rw [factor, abs_mul, abs_of_nonneg tenth_nonneg]
      exact mul_le_of_le_one_right (abs_nonneg _) tenth_le
    have le := rounded_mono shorter
    rw [← abs_rounded, ← abs_rounded, rounded_exactValue factorFinite] at le
    exact le.trans_lt (abs_exactValue_lt factorFinite)
  have isLength : exactValue (80 / width * 0.1) = tenthLength (exactValue width) :=
    product.exactValue_eq productFinite
  have quotient := roundsTo_div hundredFinite productFinite (by
    rw [isLength, ← abs_pos]
    exact (two_zpow_pos _).trans_le (tenthLength_large nonzero (abs_exactValue_lt widthFinite)))
  rw [isHundred, isLength, Nat.cast_ofNat] at quotient
  exact quotient

/-- The quotients by an infinite width are those by the infinity itself. -/
theorem tenths_of_infinity {sign : Sign} (form : width.toModel.unpack = .infinity sign) :
    tenths width = 100 / (Float.ofModel (.pack (UnpackedFloat.div Format.binary64
      (80 : Float).toModel.unpack (.infinity sign))) * 0.1) :=
  congrArg (fun form => (100 : Float) / (Float.ofModel (.pack (UnpackedFloat.div Format.binary64
    (80 : Float).toModel.unpack form)) * 0.1)) form

theorem not_isFinite_of_div_isNaN (isNaN : width.isNaN = true) :
    (80 / width).isFinite = false := by
  change (Float.ofModel (.pack (UnpackedFloat.div Format.binary64 (80 : Float).toModel.unpack
    width.toModel.unpack))).isFinite = false
  rw [unpack_of_isNaN isNaN]
  decide +kernel

theorem thousand_le_tenths_of_infinite (notFinite : ¬width.isFinite = true)
    (notNaN : width.isNaN = false) :
    Float.ofNat maxTicCount ≤ tenths width ↔ (80 : Float) ≤ width := by
  have eightyFinite : (80 : Float).isFinite = true := by decide +kernel
  obtain ⟨sign, form⟩ := (finite_or_infinity notNaN).resolve_left notFinite
  rw [tenths_of_infinity form]
  cases sign with
  | positive =>
      exact iff_of_true (by decide +kernel) (le_infinity (isNaN_of_isFinite eightyFinite) form)
  | negative =>
      refine iff_of_false (by decide +kernel) ?_
      rw [not_le_iff_lt (isNaN_of_isFinite eightyFinite) notNaN, lt_iff_compare, form]
      exact (compare_infinity (x := (80 : Float).toModel.unpack) eightyFinite).2.2.1

theorem tenths_le {wider : Float} (widthFinite : width.isFinite = true)
    (widerFinite : wider.isFinite = true) (factorFinite : (80 / width).isFinite = true)
    (widerFactorFinite : (80 / wider).isFinite = true) (positive : 0 < exactValue width)
    (le : exactValue width ≤ exactValue wider) : tenths width ≤ tenths wider := by
  have shorter := tenthLength_anti positive le
  have lengthPositive := tenthLength_pos (positive.trans_le le)
    (abs_lt.mp (abs_exactValue_lt widerFinite)).2
  exact (tenths_roundsTo widthFinite factorFinite).le (tenths_roundsTo widerFinite widerFactorFinite)
    (div_le_div_of_nonneg_left (by norm_num) lengthPositive shorter)

theorem tenths_nonpos (widthFinite : width.isFinite = true)
    (factorFinite : (80 / width).isFinite = true) (negative : exactValue width < 0) :
    tenths width ≤ Float.ofNat 0 := by
  refine (tenths_roundsTo widthFinite factorFinite).le (roundsTo_ofNat 0) ?_
  rw [Nat.cast_zero]
  exact div_nonpos_of_nonneg_of_nonpos (by norm_num) (tenthLength_nonpos negative)

/-- The last float below eighty. -/
def belowEighty : Float := Float.ofBits 0x4053FFFFFFFFFFFF

theorem belowEighty_exact : belowEighty.isFinite = true ∧
    exactValue belowEighty = (80 * 2 ^ 46 - 1 : ℤ) * 2 ^ (-46 : ℤ) := by
  have form : Dyadic.ofFloat belowEighty = ⟨false, 80 * 2 ^ 46 - 1, -46⟩ := by decide +kernel
  refine ⟨by decide +kernel, ?_⟩
  rw [exactValue, form, Dyadic.value_of_not_negative rfl]
  norm_num

/-- A thousand tenths fit exactly when the range is eighty wide. -/
theorem thousand_le_tenths_iff (factorFinite : (80 / width).isFinite = true) :
    Float.ofNat maxTicCount ≤ tenths width ↔ (80 : Float) ≤ width := by
  obtain ⟨eightyFinite, isEighty⟩ :
    (80 : Float).isFinite = true ∧ exactValue 80 = (80 : ℕ) := ofNat_exact (by norm_num)
  obtain ⟨belowFinite, isBelow⟩ := belowEighty_exact
  by_cases widthFinite : width.isFinite = true
  · rw [le_iff_exactValue_le eightyFinite widthFinite, isEighty, Nat.cast_ofNat]
    constructor
    · intro many
      by_contra narrow
      rcases (exactValue_ne_zero_of_div factorFinite widthFinite).lt_or_gt with negative | positive
      · have impossible := le_trans_of_float many (tenths_nonpos widthFinite factorFinite negative)
        exact absurd impossible (by decide +kernel)
      · -- a narrower range is no wider than the last float below eighty
        have less : exactValue width < (80 * 2 ^ 46 : ℤ) * 2 ^ (-46 : ℤ) := by
          norm_num at narrow ⊢
          exact narrow
        have le := (onGrid_exactValue widthFinite).le_of_lt (by norm_num) less
        have impossible := le_trans_of_float many (tenths_le widthFinite belowFinite factorFinite
          (by decide +kernel) positive (le.trans_eq isBelow.symm))
        exact absurd impossible (by decide +kernel)
    · intro wide
      have first : Float.ofNat maxTicCount ≤ tenths 80 := by decide +kernel
      refine le_trans_of_float first (tenths_le eightyFinite widthFinite (by decide +kernel)
        factorFinite ?_ ?_)
      · rw [isEighty]
        norm_num
      · rw [isEighty, Nat.cast_ofNat]
        exact wide
  · cases isNaN : width.isNaN with
    | true =>
        rw [not_isFinite_of_div_isNaN isNaN] at factorFinite
        cases factorFinite
    | false => exact thousand_le_tenths_of_infinite widthFinite isNaN

end

/-! ### Scales -/

/-- From the smallest of a base and the values to the largest of a top and the values it is eighty
or more. -/
def NumericTree.SpansEighty (tree : NumericTree Float) (base top : Float) : Prop :=
  ∃ low high, tree.range = some (low, high) ∧
    (80 : Float) ≤ PlotNumber.maximum top high - PlotNumber.minimum base low

variable {scale : LinearScale Float}

theorem exceeds_tenth_iff {low high : Float} (accepted : Accepted low high (100 * 0.8) scale) :
    TicSettings.Exceeds scale 100 ⟨some 0.1, none⟩ ↔ (80 : Float) ≤ high - low := by
  have extent : (100 : Float) * 0.8 = 80 := by decide +kernel
  have factorFinite := accepted.factorFinite
  rw [extent] at factorFinite
  have steps : wholeSteps scale 0.1 100 = Whole.floor (tenths (high - low)) := by
    rw [wholeSteps, accepted.scale_eq, extent]
    rfl
  have positive : (0 : Float) < 0.1 := by decide +kernel
  rw [← thousand_le_tenths_iff factorFinite, ← ofNat_le_floor_iff (by decide), ← steps]
  exact and_iff_right positive

/-- On the scale of values over eighty of a hundred, tenths are too many exactly when the values
span eighty. -/
theorem exceeds_tenth_iff_spansEighty {tree : NumericTree Float} {base top : Float}
    (derived : deriveScale tree base top 100 0.8 = .ok scale) :
    TicSettings.Exceeds scale 100 ⟨some 0.1, none⟩ ↔ tree.SpansEighty base top := by
  obtain ⟨⟨low, high⟩, isRange, accepted⟩ := deriveScale_accepted derived
  rw [exceeds_tenth_iff accepted]
  constructor
  · intro wide
    exact ⟨low, high, isRange, wide⟩
  · rintro ⟨_, _, same, wide⟩
    cases isRange.symm.trans same
    exact wide

end TikzChart
