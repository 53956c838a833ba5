import TikzChart.Geometry
import TikzChart.Proofs.Decimal.FixedText
import TikzChart.Proofs.Decimal.Shortest
import TikzChart.Proofs.Rounding.TotalOrder
import TikzChart.Proofs.Rounding.WholeNumbers

/-!
The text of numbers in a script. A number is brought to six decimals by a multiplication, a
rounding and a division; what is written is the shortest decimal of the result, which therefore
has no more places than six. The multiplication can overflow, and then the name of an infinity is
written (`numbers_plain_unless_product_overflows`).
-/

set_option autoImplicit false

namespace TikzChart

open Float.Model Unpacked

/-! ### Plain decimals -/

/-- The places of a numeral above and below its point: any digits above, below at most six, and
the last of them is no zero. -/
structure Decimal.PlainPlaces (digits decimals : List Char) : Prop where
  nonempty : digits ≠ []
  all : ∀ c ∈ digits, c.isDigit = true
  allDecimals : ∀ c ∈ decimals, c.isDigit = true
  few : decimals.length ≤ 6
  last : decimals.getLast? ≠ some '0'

/-- A numeral without an exponent, perhaps under a minus. There is no minus before zero. -/
def Decimal.IsPlain (text : String) : Prop :=
  ∃ (negative : Bool) (digits decimals : List Char), PlainPlaces digits decimals ∧
    (negative = true → ∃ c ∈ digits ++ decimals, c ≠ '0') ∧
    text.toList = (if negative then ['-'] else []) ++
      (digits ++ (if decimals = [] then [] else '.' :: decimals))

namespace Decimal

variable {text : String}

theorem IsPlain.characters (plain : IsPlain text) :
    ∀ c ∈ text.toList, c = '-' ∨ c = '.' ∨ c.isDigit = true := by
  obtain ⟨negative, digits, decimals, places, -, same⟩ := plain
  intro c member
  rw [same] at member
  rcases List.mem_append.mp member with inSign | member
  · split at inSign
    · exact .inl (List.mem_singleton.mp inSign)
    · cases inSign
  rcases List.mem_append.mp member with inDigits | member
  · exact .inr (.inr (places.all c inDigits))
  · split at member
    · cases member
    · rcases List.mem_cons.mp member with isPoint | inDecimals
      · exact .inr (.inl isPoint)
      · exact .inr (.inr (places.allDecimals c inDecimals))

theorem IsPlain.not_mem {c : Char} (plain : IsPlain text)
    (other : c ≠ '-' ∧ c ≠ '.' ∧ c.isDigit = false) : c ∉ text.toList := by
  intro member
  rcases plain.characters c member with isMinus | isPoint | isDigit
  · exact other.1 isMinus
  · exact other.2.1 isPoint
  · exact absurd isDigit (by simp [other.2.2])

theorem not_isPlain_infinity : ¬IsPlain "inf" ∧ ¬IsPlain "-inf" :=
  ⟨fun plain => plain.not_mem (c := 'i') (by decide) (by decide),
    fun plain => plain.not_mem (c := 'i') (by decide) (by decide)⟩

theorem IsPlain.ne_negative_zero (plain : IsPlain text) : text ≠ "-0" := by
  rintro rfl
  obtain ⟨negative, digits, decimals, places, notZero, same⟩ := plain
  cases negative with
  | true =>
      obtain ⟨c, member, ne⟩ := notZero rfl
      have apart : "-0".toList = ['-'] ++ ['0'] := by decide
      rw [apart, if_pos rfl] at same
      have rest := List.append_cancel_left same
      have isZero : c ∈ ['0'] := by
        rw [rest]
        rcases List.mem_append.mp member with inDigits | inDecimals
        · exact List.mem_append_left _ inDigits
        · rw [if_neg (List.ne_nil_of_mem inDecimals)]
          exact List.mem_append_right _ (List.mem_cons_of_mem _ inDecimals)
      exact ne (List.mem_singleton.mp isZero)
  | false =>
      cases digits with
      | nil => exact places.nonempty rfl
      | cons first rest =>
          have isMinus : '-' = first := (List.cons.inj same).1
          have isDigit := places.all first List.mem_cons_self
          rw [← isMinus] at isDigit
          exact absurd isDigit (by decide)

theorem isPlain_zero : IsPlain "0" :=
  ⟨false, ['0'], [],
    ⟨by decide, List.forall_mem_singleton.mpr rfl, List.forall_mem_nil _, Nat.zero_le 6, by decide⟩,
    fun impossible => absurd impossible Bool.false_ne_true, by decide⟩

/-! ### Shortest decimals -/

theorem getLast_toDigits (d : ℕ) : (Nat.toDigits 10 d).getLast? = some (d % 10).digitChar := by
  rw [Nat.toDigits_eq_if (by norm_num)]
  split
  · next small => rw [Nat.mod_eq_of_lt small, List.getLast?_singleton]
  · exact List.getLast?_concat

theorem digitChar_ne_zero {d : ℕ} (last : d % 10 ≠ 0) : (d % 10).digitChar ≠ '0' := by
  have table : ∀ digit < 10, digit ≠ 0 → digit.digitChar ≠ '0' := by decide
  exact table _ (Nat.mod_lt d (by norm_num)) last

theorem plainPlaces_positional {d : ℕ} {exponent : ℤ} (last : d % 10 ≠ 0) (few : -6 ≤ exponent) :
    ∃ digits decimals, PlainPlaces digits decimals ∧ (∃ c ∈ digits ++ decimals, c ≠ '0') ∧
      positional d exponent = digits ++ (if decimals = [] then [] else '.' :: decimals) := by
  have isLast := getLast_toDigits d
  cases exponent with
  | ofNat zeros =>
      refine ⟨Nat.toDigits 10 d ++ List.replicate zeros '0', [], ?_, ?_, (List.append_nil _).symm⟩
      · refine ⟨List.append_ne_nil_of_left_ne_nil Nat.toDigits_ne_nil _, fun c member => ?_,
          List.forall_mem_nil _, Nat.zero_le 6, Option.some_ne_none _ |>.symm⟩
        rcases List.mem_append.mp member with digit | zero
        · exact isDigit_of_mem_toDigits digit
        · exact isDigit_of_mem_replicate zero
      · refine ⟨_, ?_, digitChar_ne_zero last⟩
        rw [List.append_nil]
        exact List.mem_append_left _ (List.mem_of_getLast? isLast)
  | negSucc below =>
      obtain ⟨digits, decimals, nonempty, all, allDecimals, length, sameLast, pointed⟩ :=
        positional_of_places d below
      have isDecimal := List.mem_of_getLast? (sameLast.trans isLast)
      refine ⟨digits, decimals, ⟨nonempty, all, allDecimals, by omega, ?_⟩,
        ⟨_, List.mem_append_right _ isDecimal, digitChar_ne_zero last⟩, ?_⟩
      · rw [sameLast, isLast]
        exact fun isZero => digitChar_ne_zero last (Option.some_inj.mp isZero)
      · rw [if_neg (List.ne_nil_of_mem isDecimal)]
        exact pointed

/-- What six decimals are rounded to is written with six decimals at most. -/
theorem isPlain_plainText {x : Float} (finite : x.isFinite = true) (nonzero : exactValue x ≠ 0)
    {whole : ℤ} (same : exactValue x = rounded (whole / 10 ^ 6)) : IsPlain (plainText x) := by
  have positive : 0 < (Dyadic.ofFloat x).mantissa := by
    rw [Nat.pos_iff_ne_zero]
    intro isZero
    have noSize := abs_exactValue x
    rw [isZero, Nat.cast_zero, zero_mul, abs_eq_zero] at noSize
    exact nonzero noSize
  have size : rounded ((whole.natAbs : ℚ) / 10 ^ 6) =
      (Dyadic.ofFloat x).mantissa * 2 ^ (Dyadic.ofFloat x).exponent := by
    have scale : |(10 : ℚ) ^ 6| = 10 ^ 6 := abs_of_pos (by norm_num)
    rw [← abs_exactValue, same, abs_rounded, abs_div, scale, Nat.cast_natAbs, Int.cast_abs]
  have few := Interval.neg_places_le_exponent (hasPlaces_ofFloat x) positive size
  have last := (Interval.surrounds_ofDyadic positive).last_digit_ne_zero
  cases chosen : (Interval.ofDyadic (Dyadic.ofFloat x)).shortest with
  | mk d exponent =>
      rw [chosen] at few last
      obtain ⟨digits, decimals, places, notZero, written⟩ := plainPlaces_positional last few
      refine ⟨(Dyadic.ofFloat x).negative, digits, decimals, places, fun _ => notZero, ?_⟩
      rw [plainText, if_pos finite, ← written, ← shortestDigits_of_shortest positive.ne' chosen]
      exact toList_signed _ _

end Decimal

/-! ### Six decimals -/

variable {x : Float}

theorem zero_exact : (0 : Float).isFinite = true ∧ exactValue 0 = 0 := by
  obtain ⟨isFinite, isZero⟩ := ofNat_exact (n := 0) (by norm_num)
  exact ⟨isFinite, isZero.trans Nat.cast_zero⟩

theorem million_exact : (1e6 : Float).isFinite = true ∧ exactValue 1e6 = 10 ^ 6 := by
  have form : Dyadic.ofFloat 1e6 = ⟨false, 10 ^ 6 * 2 ^ 33, -33⟩ := by decide +kernel
  refine ⟨by decide +kernel, ?_⟩
  rw [exactValue, form, Dyadic.value_of_not_negative rfl]
  norm_num

theorem product_isFinite_iff (finite : x.isFinite = true) :
    (x * 1e6).isFinite = true ↔ |exactValue x| * 10 ^ 6 < overflowBound := by
  obtain ⟨millionFinite, isMillion⟩ := million_exact
  have product := isRounding_mul finite millionFinite
  have size : |exactValue x| * 10 ^ 6 = |exactValue x * exactValue 1e6| := by
    rw [isMillion, abs_mul, abs_of_pos (show (0 : ℚ) < 10 ^ 6 by norm_num)]
  rw [size, ← abs_rounded_lt_limit_iff]
  refine ⟨fun productFinite => ?_, product.isFinite_of_lt⟩
  rw [← product.exactValue_eq productFinite]
  exact abs_exactValue_lt productFinite

theorem sixDecimals_exact (productFinite : (x * 1e6).isFinite = true) :
    ∃ whole : ℤ, (Whole.round (x * 1e6) / 1e6).isFinite = true ∧
      exactValue (Whole.round (x * 1e6) / 1e6) = rounded (whole / 10 ^ 6) := by
  obtain ⟨millionFinite, isMillion⟩ := million_exact
  obtain ⟨roundFinite, isRound⟩ := round_exact productFinite
  obtain ⟨whole, isWhole⟩ := exists_roundRat_eq (exactValue (x * 1e6))
  have quotient := isRounding_div roundFinite millionFinite (by rw [isMillion]; norm_num)
  have smaller : |exactValue (Whole.round (x * 1e6)) / exactValue 1e6| ≤
      |exactValue (Whole.round (x * 1e6))| := by
    rw [isMillion, abs_div, abs_of_pos (show (0 : ℚ) < 10 ^ 6 by norm_num)]
    exact div_le_self (abs_nonneg _) (by norm_num)
  have onGrid : OnGrid |exactValue (Whole.round (x * 1e6))| := by
    rcases abs_choice (exactValue (Whole.round (x * 1e6))) with same | negated
    · rw [same]
      exact onGrid_exactValue roundFinite
    · rw [negated]
      exact (onGrid_exactValue roundFinite).neg
  have quotientFinite := quotient.isFinite_of_le onGrid (abs_exactValue_lt roundFinite) smaller
  refine ⟨whole, quotientFinite, ?_⟩
  rw [quotient.exactValue_eq quotientFinite, isRound, isWhole, isMillion]

theorem isPlain_numberText (finite : x.isFinite = true)
    (productFinite : (x * 1e6).isFinite = true) : Decimal.IsPlain (numberText x) := by
  obtain ⟨whole, resultFinite, same⟩ := sixDecimals_exact productFinite
  rw [numberText, if_pos finite]
  dsimp only
  split
  · exact Decimal.isPlain_zero
  · next notZero =>
      refine Decimal.isPlain_plainText resultFinite (fun isZero => notZero ?_) same
      obtain ⟨zeroFinite, zeroValue⟩ := zero_exact
      rw [beq_iff_extendedValue_eq (isNaN_of_isFinite resultFinite) (isNaN_of_isFinite zeroFinite),
        extendedValue_of_isFinite resultFinite, extendedValue_of_isFinite zeroFinite, isZero,
        zeroValue]

/-! ### Overflow -/

/-- A product that is too large is an infinity on its side of zero. -/
theorem product_infinity (finite : x.isFinite = true) (notFinite : (x * 1e6).isFinite = false) :
    (x * 1e6).toModel.unpack = .infinity (if exactValue x < 0 then .negative else .positive) := by
  obtain ⟨millionFinite, isMillion⟩ := million_exact
  obtain ⟨notNaN, place⟩ := roundsTo_mul finite millionFinite
  rcases finite_or_infinity notNaN with isFinite | ⟨sign, form⟩
  · exact absurd isFinite (by simp [notFinite])
  · have limit := two_zpow_pos 1024
    have scalePos : (0 : ℚ) < 10 ^ 6 := by norm_num
    have middle : clamped 0 = 0 := by
      rw [clamped, rounded_zero, min_eq_right limit.le, max_eq_right (neg_nonpos.mpr limit.le)]
    rw [extendedValue_of_infinity form, isMillion] at place
    rw [form]
    split
    · next below =>
        have side := clamped_mono (mul_nonpos_of_nonpos_of_nonneg below.le scalePos.le)
        cases sign with
        | negative => rfl
        | positive =>
            rw [middle, ← place, unit, one_mul] at side
            exact absurd limit (not_lt.mpr side)
    · next notBelow =>
        have side := clamped_mono (mul_nonneg (not_lt.mp notBelow) scalePos.le)
        cases sign with
        | positive => rfl
        | negative =>
            rw [middle, ← place, unit, neg_one_mul] at side
            exact absurd limit (not_lt.mpr (neg_nonneg.mp side))

def Decimal.infinityName : UnpackedFloat.Sign → String
  | .negative => "-inf"
  | .positive => "inf"

theorem plainText_infinity {sign : UnpackedFloat.Sign} (form : x.toModel.unpack = .infinity sign) :
    (x == 0) = false ∧ Decimal.plainText x = Decimal.infinityName sign := by
  have limit := two_zpow_pos 1024
  have notNaN := isNaN_of_infinity form
  have notFinite : x.isFinite = false := congrArg UnpackedFloat.isFinite form
  obtain ⟨zeroFinite, isZero⟩ := zero_exact
  have zeroNotNaN := isNaN_of_isFinite zeroFinite
  have less := lt_iff_extendedValue_lt notNaN zeroNotNaN
  have same := beq_iff_extendedValue_eq notNaN zeroNotNaN
  rw [extendedValue_of_infinity form, extendedValue_of_isFinite zeroFinite, isZero] at less same
  rw [Decimal.plainText, notFinite, if_neg Bool.false_ne_true, Decimal.nonFiniteText, notNaN,
    if_neg Bool.false_ne_true]
  cases sign with
  | negative =>
      rw [unit, neg_one_mul] at less same
      refine ⟨?_, if_pos (less.mpr (neg_neg_of_pos limit))⟩
      rw [← Bool.not_eq_true, same]
      exact (neg_neg_of_pos limit).ne
  | positive =>
      rw [unit, one_mul] at less same
      refine ⟨?_, if_neg fun below => absurd limit (not_lt.mpr (less.mp below).le)⟩
      rw [← Bool.not_eq_true, same]
      exact limit.ne'

theorem numberText_of_overflow (finite : x.isFinite = true)
    (notFinite : (x * 1e6).isFinite = false) :
    numberText x = if exactValue x < 0 then "-inf" else "inf" := by
  obtain ⟨millionFinite, isMillion⟩ := million_exact
  have quotient := div_infinity (product_infinity finite notFinite) millionFinite
    (by rw [isMillion]; norm_num)
  obtain ⟨notZero, named⟩ := plainText_infinity quotient
  rw [numberText, if_pos finite, round_of_not_isFinite notFinite]
  dsimp only
  rw [notZero, if_neg Bool.false_ne_true, named, apply_ite Decimal.infinityName]
  rfl

/-! ### Coordinates -/

/-- Bringing the number to six decimals does not overflow. -/
def FitsInMillionths (x : Float) : Prop := |exactValue x| * 10 ^ 6 < overflowBound

theorem numberText_cases (finite : x.isFinite = true) :
    FitsInMillionths x ∧ Decimal.IsPlain (numberText x) ∨
      ¬FitsInMillionths x ∧ numberText x = if exactValue x < 0 then "-inf" else "inf" := by
  rw [FitsInMillionths, ← product_isFinite_iff finite]
  cases productFinite : (x * 1e6).isFinite with
  | true => exact .inl ⟨rfl, isPlain_numberText finite productFinite⟩
  | false => exact .inr ⟨Bool.false_ne_true, numberText_of_overflow finite productFinite⟩

theorem isPlain_numberText_iff (finite : x.isFinite = true) :
    Decimal.IsPlain (numberText x) ↔ FitsInMillionths x := by
  rcases numberText_cases finite with ⟨fits, plain⟩ | ⟨overflows, named⟩
  · exact iff_of_true plain fits
  · refine iff_of_false ?_ overflows
    rw [named]
    split
    · exact Decimal.not_isPlain_infinity.2
    · exact Decimal.not_isPlain_infinity.1

/-- Two plain decimals in millimetres, as a coordinate has them. -/
def Decimal.IsPlainPair (text : String) : Prop :=
  ∃ first second, IsPlain first ∧ IsPlain second ∧
    text = "(" ++ first ++ "mm, " ++ second ++ "mm)"

theorem takeWhile_before {c : Char} {front : List Char} (notMem : c ∉ front) (rest : List Char) :
    (front ++ c :: rest).takeWhile (· != c) = front := by
  have others : ∀ other ∈ front, (other != c) = true := by
    intro other member
    rw [bne_iff_ne]
    rintro rfl
    exact notMem member
  rw [List.takeWhile_append_of_pos others, List.takeWhile_cons_of_neg (by simp), List.append_nil]

theorem unit_not_mem_numberText (finite : x.isFinite = true) : 'm' ∉ (numberText x).toList := by
  rcases numberText_cases finite with ⟨-, plain⟩ | ⟨-, named⟩
  · exact plain.not_mem (by decide)
  · rw [named]
    split
    · decide
    · decide

theorem isPlainPair_iff {y : Float} (xFinite : x.isFinite = true) (yFinite : y.isFinite = true) :
    Decimal.IsPlainPair (pairText x y) ↔ FitsInMillionths x ∧ FitsInMillionths y := by
  rw [← isPlain_numberText_iff xFinite, ← isPlain_numberText_iff yFinite]
  constructor
  · rintro ⟨first, second, firstPlain, secondPlain, same⟩
    have places (first second : String) :
        ("(" ++ first ++ "mm, " ++ second ++ "mm)").toList =
          '(' :: (first.toList ++ 'm' :: ("m, ".toList ++ (second.toList ++ "mm)".toList))) := by
      simp [String.toList_append]
    have lists := congrArg String.toList same
    rw [pairText, places, places] at lists
    have tails := (List.cons.inj lists).2
    have firsts := congrArg (List.takeWhile (· != 'm')) tails
    rw [takeWhile_before (unit_not_mem_numberText xFinite),
      takeWhile_before (firstPlain.not_mem (by decide))] at firsts
    rw [firsts] at tails
    have rests := (List.cons.inj (List.append_cancel_left tails)).2
    have seconds := List.append_cancel_right (List.append_cancel_left rests)
    rw [String.toList_injective firsts, String.toList_injective seconds]
    exact ⟨firstPlain, secondPlain⟩
  · rintro ⟨xPlain, yPlain⟩
    exact ⟨_, _, xPlain, yPlain, rfl⟩

theorem numbers_plain_unless_product_overflows {x y : Float} (xFinite : x.isFinite = true)
    (yFinite : y.isFinite = true) :
    (Decimal.IsPlain (numberText x) ↔ FitsInMillionths x) ∧
      (¬FitsInMillionths x → numberText x = if exactValue x < 0 then "-inf" else "inf") ∧
      numberText x ≠ "-0" ∧ numberText x ≠ "NaN" ∧
      (Decimal.IsPlainPair (Point.text ⟨x, y⟩) ↔ FitsInMillionths x ∧ FitsInMillionths y) ∧
      ∃ pair, Shift.text ⟨x, y⟩ = "++" ++ pair ∧
        (Decimal.IsPlainPair pair ↔ FitsInMillionths x ∧ FitsInMillionths y) := by
  have pairs := isPlainPair_iff xFinite yFinite
  refine ⟨isPlain_numberText_iff xFinite, ?_, ?_, ?_, pairs, _, rfl, pairs⟩
  · intro overflows
    rcases numberText_cases xFinite with ⟨fits, -⟩ | ⟨-, named⟩
    · exact absurd fits overflows
    · exact named
  · rcases numberText_cases xFinite with ⟨-, plain⟩ | ⟨-, named⟩
    · exact plain.ne_negative_zero
    · rw [named]
      split <;> decide
  · rcases numberText_cases xFinite with ⟨-, plain⟩ | ⟨-, named⟩
    · intro noNumber
      rw [noNumber] at plain
      exact plain.not_mem (c := 'N') (by decide) (by decide)
    · rw [named]
      split <;> decide

theorem noisy_sum_written_plainly :
    Decimal.IsPlainPair (Point.text ⟨0.1 + 0.2, -1e-9⟩) ∧
      Point.text ⟨0.1 + 0.2, -1e-9⟩ = "(0.3mm, 0mm)" := by
  have sumFinite : (0.1 + 0.2 : Float).isFinite = true := by decide +kernel
  have smallFinite : (-1e-9 : Float).isFinite = true := by decide +kernel
  have sumFits := (product_isFinite_iff sumFinite).mp (by decide +kernel)
  have smallFits := (product_isFinite_iff smallFinite).mp (by decide +kernel)
  have general := numbers_plain_unless_product_overflows sumFinite smallFinite
  exact ⟨general.2.2.2.2.1.mpr ⟨sumFits, smallFits⟩, by decide +kernel⟩

theorem finite_number_written_inf :
    (1.797e308 : Float).isFinite = true ∧ numberText 1.797e308 = "inf" ∧
      ¬Decimal.IsPlain (numberText 1.797e308) := by
  have isName : numberText 1.797e308 = "inf" := by decide +kernel
  exact ⟨by decide +kernel, isName, isName ▸ Decimal.not_isPlain_infinity.1⟩

end TikzChart
