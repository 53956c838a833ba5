/-!
Texts are ordered by their characters. The bytes of the texts have the same order: of two
characters the greater one has the greater byte where their bytes first differ.
-/

set_option autoImplicit false

namespace TikzChart.Text

/-- Bytes in order: the first one decides, or else what follows. -/
theorem cons_ofNat_lt {first second : Nat} {firstRest secondRest : List UInt8}
    (small : second < 256) (ordered : first ≤ second)
    (next : first = second → firstRest < secondRest) :
    UInt8.ofNat first :: firstRest < UInt8.ofNat second :: secondRest := by
  rw [List.cons_lt_cons_iff]
  by_cases same : first = second
  · exact .inr ⟨congrArg UInt8.ofNat same, next same⟩
  · have smaller : first < 256 := Nat.lt_of_le_of_lt ordered small
    left
    rw [UInt8.lt_iff_toNat_lt, UInt8.toNat_ofNat_of_lt' small, UInt8.toNat_ofNat_of_lt' smaller]
    exact Nat.lt_of_le_of_ne ordered same

/-- The greater character has the greater bytes, whatever follows. -/
theorem utf8EncodeChar_lt {first second : Char} (less : first < second)
    (firstRest secondRest : List UInt8) :
    String.utf8EncodeChar first ++ firstRest < String.utf8EncodeChar second ++ secondRest := by
  have below : first.val.toNat < second.val.toNat := less
  have bound : second.val.toNat < 0x110000 := by
    rcases second.valid with low | high
    · exact Nat.lt_trans low (by decide)
    · exact high.2
  unfold String.utf8EncodeChar
  generalize first.val.toNat = v at below
  generalize second.val.toNat = w at below bound
  dsimp only
  -- The number of bytes grows with the character, and the first byte tells it.
  by_cases one : v ≤ 0x7f
  · rw [if_pos one]
    split
    · exact cons_ofNat_lt (by omega) (by omega) fun same => by omega
    · split
      · exact cons_ofNat_lt (by omega) (by omega) fun same => by omega
      · split
        · exact cons_ofNat_lt (by omega) (by omega) fun same => by omega
        · exact cons_ofNat_lt (by omega) (by omega) fun same => by omega
  · rw [if_neg one, if_neg (show ¬w ≤ 0x7f by omega)]
    by_cases two : v ≤ 0x7ff
    · rw [if_pos two]
      split
      · refine cons_ofNat_lt (by omega) (by omega) fun sameHigh => ?_
        exact cons_ofNat_lt (by omega) (by omega) fun same => by omega
      · split
        · exact cons_ofNat_lt (by omega) (by omega) fun same => by omega
        · exact cons_ofNat_lt (by omega) (by omega) fun same => by omega
    · rw [if_neg two, if_neg (show ¬w ≤ 0x7ff by omega)]
      by_cases three : v ≤ 0xffff
      · rw [if_pos three]
        split
        · refine cons_ofNat_lt (by omega) (by omega) fun sameHigh => ?_
          refine cons_ofNat_lt (by omega) (by omega) fun sameMiddle => ?_
          exact cons_ofNat_lt (by omega) (by omega) fun same => by omega
        · exact cons_ofNat_lt (by omega) (by omega) fun same => by omega
      · rw [if_neg three, if_neg (show ¬w ≤ 0xffff by omega)]
        refine cons_ofNat_lt (by omega) (by omega) fun sameHigh => ?_
        refine cons_ofNat_lt (by omega) (by omega) fun sameMiddle => ?_
        refine cons_ofNat_lt (by omega) (by omega) fun sameLow => ?_
        exact cons_ofNat_lt (by omega) (by omega) fun same => by omega

theorem append_lt_append {common first second : List UInt8} (less : first < second) :
    common ++ first < common ++ second := by
  induction common with
  | nil => exact less
  | cons byte common ih => exact List.cons_lt_cons_iff.mpr (.inr ⟨rfl, ih⟩)

theorem flatMap_utf8EncodeChar_lt {first second : List Char} (less : first < second) :
    first.flatMap String.utf8EncodeChar < second.flatMap String.utf8EncodeChar := by
  induction first generalizing second with
  | nil =>
      cases second with
      | nil => exact absurd less (List.lt_irrefl [])
      | cons d second =>
          rw [List.flatMap_nil, List.flatMap_cons]
          cases encoded : String.utf8EncodeChar d with
          | nil => exact absurd encoded String.utf8EncodeChar_ne_nil
          | cons byte rest => exact List.nil_lt_cons byte _
  | cons c first ih =>
      cases second with
      | nil => exact absurd less (List.not_lt_nil _)
      | cons d second =>
          rw [List.flatMap_cons, List.flatMap_cons]
          rcases List.cons_lt_cons_iff.mp less with smaller | ⟨rfl, rest⟩
          · exact utf8EncodeChar_lt smaller _ _
          · exact append_lt_append (ih rest)

/-- The bytes of a text, in order. -/
def bytes (text : String) : List UInt8 := text.toUTF8.data.toList

theorem bytes_eq_flatMap (text : String) :
    bytes text = text.toList.flatMap String.utf8EncodeChar := by
  have encoded : text.toUTF8 = text.toList.utf8Encode := String.utf8Encode_toList.symm
  unfold bytes
  rw [encoded, List.utf8Encode, List.toList_data_toByteArray]

/-- The order of texts is the order of their bytes. -/
theorem bytes_lt_bytes {first second : String} (less : first < second) :
    bytes first < bytes second := by
  rw [bytes_eq_flatMap, bytes_eq_flatMap]
  exact flatMap_utf8EncodeChar_lt (String.lt_iff.mp less)

end TikzChart.Text
