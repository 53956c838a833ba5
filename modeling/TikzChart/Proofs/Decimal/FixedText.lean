import TikzChart.Decimal.Fixed
import TikzChart.Decimal.Numeral
import TikzChart.Proofs.Text.Blank

/-!
Text with a fixed number of decimals is a numeral: every float, whether it has digits or not, is
written in a way that can be read again, and without blanks.
-/

set_option autoImplicit false

namespace TikzChart

/-! ### Decimals without a sign -/

/-- Digits, perhaps with a point behind the first of them. -/
inductive Decimal.IsUnsigned : List Char → Prop
  | whole {digits : List Char} (nonempty : digits ≠ []) (all : ∀ c ∈ digits, c.isDigit = true) :
    IsUnsigned digits
  | fraction {digits decimals : List Char} (nonempty : digits ≠ [])
    (all : ∀ c ∈ digits, c.isDigit = true) (allDecimals : ∀ c ∈ decimals, c.isDigit = true) :
    IsUnsigned (digits ++ '.' :: decimals)

namespace Numeral

theorem digits_of_all {text : List Char} (all : ∀ c ∈ text, c.isDigit = true) :
    digits text = (text, []) := by
  have taken : (text ++ []).takeWhile Char.isDigit = text ++ [] :=
    List.takeWhile_append_of_pos all
  have dropped : (text ++ []).dropWhile Char.isDigit = [] := List.dropWhile_append_of_pos all
  rw [List.append_nil] at taken dropped
  rw [digits, taken, dropped]

theorem digits_before_point {text : List Char} (all : ∀ c ∈ text, c.isDigit = true)
    (rest : List Char) : digits (text ++ '.' :: rest) = (text, '.' :: rest) := by
  have notDigit : ¬Char.isDigit '.' = true := by decide
  rw [digits, List.takeWhile_append_of_pos all, List.dropWhile_append_of_pos all,
    List.takeWhile_cons_of_neg notDigit, List.dropWhile_cons_of_neg notDigit, List.append_nil]

theorem decimal_of_unsigned {text : List Char} (unsigned : Decimal.IsUnsigned text) :
    ∃ datum, decimal? text = some datum := by
  cases unsigned with
  | whole nonempty all =>
      have notEmpty : ¬(text.isEmpty = true ∧ ([] : List Char).isEmpty = true) :=
        fun both => nonempty (List.isEmpty_iff.mp both.1)
      refine ⟨(value (text ++ []), (0 : Int) - (0 : Nat)), ?_⟩
      simp only [decimal?, digits_of_all all, if_neg notEmpty, exponent?, Option.map_some,
        List.length_nil]
  | @fraction whole decimals nonempty all allDecimals =>
      have notEmpty : ¬(whole.isEmpty = true ∧ decimals.isEmpty = true) :=
        fun both => nonempty (List.isEmpty_iff.mp both.1)
      refine ⟨(value (whole ++ decimals), (0 : Int) - decimals.length), ?_⟩
      simp only [decimal?, digits_before_point all, digits_of_all allDecimals, if_neg notEmpty,
        exponent?, Option.map_some]

theorem sign_of_digit {c : Char} {rest : List Char} (digit : c.isDigit = true) :
    sign (c :: rest) = (false, c :: rest) := by
  unfold sign
  split
  · next same => cases (List.cons.inj same).1; cases digit
  · next same => cases (List.cons.inj same).1; cases digit
  · rfl

theorem sign_of_unsigned {text : List Char} (unsigned : Decimal.IsUnsigned text) :
    sign text = (false, text) := by
  cases unsigned with
  | whole nonempty all =>
      cases text with
      | nil => exact absurd rfl nonempty
      | cons c rest => exact sign_of_digit (all c List.mem_cons_self)
  | @fraction whole decimals nonempty all allDecimals =>
      cases whole with
      | nil => exact absurd rfl nonempty
      | cons c rest => exact sign_of_digit (all c List.mem_cons_self)

end Numeral

/-! ### Fixed decimals -/

namespace Decimal

theorem isDigit_of_mem_replicate {count : Nat} {c : Char} (member : c ∈ List.replicate count '0') :
    c.isDigit = true := by
  rw [(List.mem_replicate.mp member).2]
  rfl

theorem isDigit_of_mem_toDigits {d : Nat} {c : Char} (member : c ∈ Nat.toDigits 10 d) :
    c.isDigit = true :=
  Nat.isDigit_of_mem_toDigits (by decide) (by decide) member

/-- Places below the point leave at least one digit above it, and the last digit stays the last. -/
theorem positional_of_places (d below : Nat) :
    ∃ digits decimals : List Char, digits ≠ [] ∧ (∀ c ∈ digits, c.isDigit = true) ∧
      (∀ c ∈ decimals, c.isDigit = true) ∧ decimals.length = below + 1 ∧
      decimals.getLast? = (Nat.toDigits 10 d).getLast? ∧
      positional d (-(below + 1 : Nat)) = digits ++ '.' :: decimals := by
  let zeros := List.replicate (below + 2 - (Nat.toDigits 10 d).length) '0'
  let padded := zeros ++ Nat.toDigits 10 d
  have all : ∀ c ∈ padded, c.isDigit = true := by
    intro c member
    rcases List.mem_append.mp member with zero | digit
    · exact isDigit_of_mem_replicate zero
    · exact isDigit_of_mem_toDigits digit
  have long : below + 2 ≤ padded.length := by
    rw [List.length_append, List.length_replicate]
    omega
  have front : padded.take (padded.length - (below + 1)) ≠ [] := by
    apply List.ne_nil_of_length_pos
    rw [List.length_take]
    omega
  have last : (padded.drop (padded.length - (below + 1))).getLast? =
      (Nat.toDigits 10 d).getLast? := by
    rw [List.getLast?_drop, if_neg (by omega), List.getLast?_append_of_ne_nil _ Nat.toDigits_ne_nil]
  exact ⟨_, _, front, fun c member => all c (List.mem_of_mem_take member),
    fun c member => all c (List.mem_of_mem_drop member), by rw [List.length_drop]; omega, last, rfl⟩

theorem isUnsigned_positional (d held places : Nat) :
    IsUnsigned (positional d (-held) ++ (if held = 0 ∧ 0 < places then ['.'] else []) ++
      List.replicate (places - held) '0') := by
  cases held with
  | zero =>
      have noPlaces : positional d (-(0 : Nat)) = Nat.toDigits 10 d := List.append_nil _
      have digits : ∀ c ∈ Nat.toDigits 10 d, c.isDigit = true := fun _ => isDigit_of_mem_toDigits
      rw [noPlaces]
      cases places with
      | zero =>
          rw [if_neg (fun both => Nat.lt_irrefl 0 both.2), List.append_nil, Nat.sub_self,
            List.replicate_zero, List.append_nil]
          exact .whole Nat.toDigits_ne_nil digits
      | succ places =>
          rw [if_pos ⟨rfl, Nat.succ_pos places⟩, List.append_assoc]
          exact .fraction Nat.toDigits_ne_nil digits fun _ => isDigit_of_mem_replicate
  | succ below =>
      obtain ⟨digits, decimals, nonempty, all, allDecimals, -, -, pointed⟩ :=
        positional_of_places d below
      rw [pointed, if_neg (fun both => Nat.succ_ne_zero below both.1), List.append_nil,
        List.append_assoc, List.cons_append]
      refine .fraction nonempty all ?_
      intro c member
      rcases List.mem_append.mp member with decimal | zero
      · exact allDecimals c decimal
      · exact isDigit_of_mem_replicate zero

theorem isUnsigned_fixedDigits (x : Dyadic) (places : Nat) : IsUnsigned (fixedDigits x places) :=
  isUnsigned_positional _ _ places

theorem isBlank_of_isDigit {c : Char} (digit : c.isDigit = true) : Text.isBlank c = false := by
  have bounds : 48 ≤ c.toNat ∧ c.toNat ≤ 57 := by
    simpa [Char.isDigit, UInt32.le_iff_toNat_le] using digit
  simp [Text.isBlank, Text.blankRanges]
  omega

theorem IsUnsigned.no_blank {text : List Char} (unsigned : IsUnsigned text) :
    ∀ c ∈ text, Text.isBlank c = false := by
  cases unsigned with
  | whole nonempty all => exact fun c member => isBlank_of_isDigit (all c member)
  | fraction nonempty all allDecimals =>
      intro c member
      rcases List.mem_append.mp member with inWhole | member
      · exact isBlank_of_isDigit (all c inWhole)
      · rcases List.mem_cons.mp member with rfl | inDecimals
        · rfl
        · exact isBlank_of_isDigit (allDecimals c inDecimals)

theorem IsUnsigned.ne_nil {text : List Char} (unsigned : IsUnsigned text) : text ≠ [] := by
  cases unsigned with
  | whole nonempty all => exact nonempty
  | fraction nonempty all allDecimals => exact List.append_ne_nil_of_left_ne_nil nonempty _

theorem toList_signed (negative : Bool) (digits : List Char) :
    (signText negative ++ String.ofList digits).toList =
      (if negative then ['-'] else []) ++ digits := by
  rw [String.toList_append, String.toList_ofList]
  cases negative with
  | true => rfl
  | false => rfl

/-- The text of a finite value: perhaps a sign, and a decimal. -/
theorem toList_fixedText {x : Float} (finite : x.isFinite = true) (places : Nat) :
    (fixedText x places).toList =
      (if (Dyadic.ofFloat x).negative then ['-'] else []) ++
        fixedDigits (Dyadic.ofFloat x) places := by
  rw [fixedText, if_pos finite]
  exact toList_signed _ _

theorem fixedText_of_not_finite {x : Float} (notFinite : x.isFinite = false) (places : Nat) :
    fixedText x places = nonFiniteText x := by
  rw [fixedText, notFinite, if_neg Bool.false_ne_true]

theorem nonFiniteText_cases (x : Float) :
    nonFiniteText x = "NaN" ∨ nonFiniteText x = "-inf" ∨ nonFiniteText x = "inf" := by
  unfold nonFiniteText
  split
  · exact .inl rfl
  · split
    · exact .inr (.inl rfl)
    · exact .inr (.inr rfl)

end Decimal

theorem Numeral.read_of_unsigned {text : String} {negative : Bool} {unsigned : List Char}
    (written : text.toList = (if negative then ['-'] else []) ++ unsigned)
    (isUnsigned : Decimal.IsUnsigned unsigned) : ∃ datum, Numeral.read text = .ok datum := by
  have signed : sign text.toList = (negative, unsigned) := by
    rw [written]
    cases negative with
    | true => rfl
    | false => exact sign_of_unsigned isUnsigned
  have nonempty : ¬text.isEmpty = true := by
    intro empty
    rw [String.isEmpty_iff.mp empty] at written
    exact isUnsigned.ne_nil (List.append_eq_nil_iff.mp written.symm).2
  obtain ⟨⟨digits, exponent⟩, found⟩ := decimal_of_unsigned isUnsigned
  refine ⟨Binary64.ofMagnitude negative (Binary64.ofDecimal digits exponent), ?_⟩
  unfold read
  rw [if_neg nonempty, signed]
  dsimp only
  rw [found]

/-- Every text with a fixed number of decimals can be read. -/
theorem Numeral.read_fixedText (x : Float) (places : Nat) :
    ∃ datum, Numeral.read (Decimal.fixedText x places) = .ok datum := by
  cases finite : x.isFinite with
  | true =>
      have unsigned := Decimal.isUnsigned_fixedDigits (Dyadic.ofFloat x) places
      exact read_of_unsigned (Decimal.toList_fixedText finite places) unsigned
  | false =>
      rw [Decimal.fixedText_of_not_finite finite places]
      rcases Decimal.nonFiniteText_cases x with same | same | same
      · rw [same]
        exact ⟨_, rfl⟩
      · rw [same]
        exact ⟨_, rfl⟩
      · rw [same]
        exact ⟨_, rfl⟩

theorem Decimal.no_blank_fixedText (x : Float) (places : Nat) :
    ∀ c ∈ (fixedText x places).toList, Text.isBlank c = false := by
  cases finite : x.isFinite with
  | true =>
      rw [toList_fixedText finite places]
      intro c member
      rcases List.mem_append.mp member with inSign | inDigits
      · split at inSign
        · rw [List.mem_singleton.mp inSign]
          rfl
        · cases inSign
      · exact (isUnsigned_fixedDigits _ places).no_blank c inDigits
  | false =>
      have noBlank : (nonFiniteText x).toList.any Text.isBlank = false := by
        rcases nonFiniteText_cases x with same | same | same
        · rw [same]
          rfl
        · rw [same]
          rfl
        · rw [same]
          rfl
      rw [fixedText_of_not_finite finite places]
      intro c member
      exact Bool.eq_false_iff.mpr (List.any_eq_false.mp noBlank c member)

end TikzChart
