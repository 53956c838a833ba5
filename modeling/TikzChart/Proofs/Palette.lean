import Mathlib.Data.List.Nodup
import TikzChart.Palette

/-!
The styles of a palette as one list. A chart is given a beginning of that list. The names in the
list are distinct; the three palettes for bars use the same names for different styles, from the
first one on, and share none of them with the palette for lines.
-/

set_option autoImplicit false

namespace TikzChart.Palette

/-- The styles of a palette in series order. -/
def styles (palette : Palette) : List Style :=
  palette.directives.mapIdx fun position directive => ⟨palette.styleName position, directive⟩

theorem getElem?_styles (palette : Palette) (position : Nat) :
    palette.styles[position]? =
      palette.directives[position]?.map fun directive => ⟨palette.styleName position, directive⟩ :=
  List.getElem?_mapIdx

theorem assign_eq_ok_iff {palette : Palette} {count : Nat} {assigned : List Style} :
    palette.assign count = .ok assigned ↔
      count ≤ palette.capacity ∧ palette.styles.take count = assigned := by
  have cut : (palette.directives.take count).mapIdx
      (fun position directive => (⟨palette.styleName position, directive⟩ : Style)) =
        palette.styles.take count := by
    apply List.ext_getElem?
    intro position
    rw [List.getElem?_mapIdx, List.getElem?_take, List.getElem?_take, getElem?_styles]
    split
    · rfl
    · rfl
  unfold assign
  by_cases tooMany : palette.capacity < count
  · rw [if_pos tooMany]
    exact iff_of_false nofun fun both => absurd both.1 (Nat.not_le.mpr tooMany)
  · rw [if_neg tooMany, and_iff_right (Nat.not_lt.mp tooMany), Except.ok.injEq, cut]

/-! ### Names -/

theorem capacity_le (palette : Palette) : palette.capacity ≤ 11 := by
  cases palette <;> decide

/-- The 64-bit words in which names are counted are wide enough for every palette. -/
theorem styleName_of_lt {palette : Palette} {position : Nat}
    (within : position < palette.capacity) :
    palette.styleName position = palette.stem ++ "-" ++ toString (position + 1) := by
  have atMost := palette.capacity_le
  have small : position < UInt64.size := by
    change position < 18446744073709551616
    omega
  have counted : (UInt64.ofNat position + 1).toNat = position + 1 := by
    rw [UInt64.toNat_add, UInt64.toNat_ofNat_of_lt' small]
    change (position + 1) % 18446744073709551616 = position + 1
    exact Nat.mod_eq_of_lt (by omega)
  rw [styleName, counted]

theorem mem_take_styles {palette : Palette} {count : Nat} {style : Style} :
    style ∈ palette.styles.take count ↔
      ∃ position < count, style.name = palette.stem ++ "-" ++ toString (position + 1) ∧
        palette.directives[position]? = some style.directive := by
  have within {position : Nat} {directive : String}
      (found : palette.directives[position]? = some directive) : position < palette.capacity :=
    (List.getElem?_eq_some_iff.mp found).1
  have taken (position : Nat) : (palette.styles.take count)[position]? = some style ↔
      position < count ∧ palette.styles[position]? = some style := by
    rw [List.getElem?_take]
    by_cases before : position < count
    · rw [if_pos before, and_iff_right before]
    · rw [if_neg before]
      exact iff_of_false nofun fun both => before both.1
  simp only [List.mem_iff_getElem?, taken, getElem?_styles, Option.map_eq_some_iff]
  constructor
  · rintro ⟨position, before, directive, found, rfl⟩
    exact ⟨position, before, styleName_of_lt (within found), found⟩
  · rintro ⟨position, before, named, found⟩
    refine ⟨position, before, style.directive, found, ?_⟩
    rw [styleName_of_lt (within found), ← named]

theorem length_of_assign {palette : Palette} {count : Nat} {assigned : List Style}
    (isAssigned : palette.assign count = .ok assigned) : assigned.length = count := by
  obtain ⟨within, rfl⟩ := assign_eq_ok_iff.mp isAssigned
  rw [List.length_take, styles, List.length_mapIdx]
  exact Nat.min_eq_left within

theorem name_of_assign {palette : Palette} {count : Nat} {assigned : List Style}
    (isAssigned : palette.assign count = .ok assigned) {position : Nat} {style : Style}
    (found : assigned[position]? = some style) :
    style.name = palette.stem ++ "-" ++ toString (position + 1) := by
  obtain ⟨_, rfl⟩ := assign_eq_ok_iff.mp isAssigned
  have inPalette : palette.styles[position]? = some style := by
    rw [List.getElem?_take] at found
    split at found
    · exact found
    · cases found
  rw [getElem?_styles, Option.map_eq_some_iff] at inPalette
  obtain ⟨directive, isDirective, rfl⟩ := inPalette
  exact styleName_of_lt (List.getElem?_eq_some_iff.mp isDirective).1

/-- Together with a list of as many entries, the names of assigned styles are counted from one. -/
theorem mapIdx_zip_of_assign {α β : Type} {palette : Palette} {entries : List α}
    {assigned : List Style} (isAssigned : palette.assign entries.length = .ok assigned)
    (make : Nat → α → String → β) :
    (entries.zip assigned).mapIdx (fun position entry => make position entry.1 entry.2.name) =
      entries.mapIdx fun position entry =>
        make position entry (palette.stem ++ "-" ++ toString (position + 1)) := by
  apply List.ext_getElem
  · rw [List.length_mapIdx, List.length_mapIdx, List.length_zip, length_of_assign isAssigned,
      Nat.min_self]
  · intro position _ _
    rw [List.getElem_mapIdx, List.getElem_mapIdx, List.getElem_zip,
      name_of_assign isAssigned (List.getElem?_eq_getElem _)]

theorem nodup_names (palette : Palette) : (palette.styles.map Style.name).Nodup := by
  cases palette <;> decide +kernel

theorem eq_of_name_eq {palette : Palette} {style other : Style} (member : style ∈ palette.styles)
    (otherMember : other ∈ palette.styles) (named : style.name = other.name) : style = other :=
  List.inj_on_of_nodup_map palette.nodup_names member otherMember named

theorem stem_eq_of_append {palette other : Palette} {text otherText : String}
    (same : palette.stem ++ "-" ++ text = other.stem ++ "-" ++ otherText) :
    palette.stem = other.stem := by
  have begins (palette : Palette) (text : String) :
      (palette.stem ++ "-" ++ text).toList.head? = palette.stem.toList.head? := by
    rw [String.toList_append, String.toList_append]
    cases palette <;> rfl
  have heads : palette.stem.toList.head? = other.stem.toList.head? := by
    rw [← begins palette text, same, begins]
  cases palette <;> cases other <;> first | rfl | exact absurd heads (by decide)

theorem eq_of_toString_eq {number other : Nat} (same : toString number = toString other) :
    number = other := by
  rw [Nat.toString_eq_ofList_toDigits, Nat.toString_eq_ofList_toDigits] at same
  have digits : Nat.toDigits 10 number = Nat.toDigits 10 other := String.ofList_injective same
  rw [← @Nat.ofDigitChars_ten_toDigits number, digits, Nat.ofDigitChars_ten_toDigits]

theorem stem_eq_of_name_eq {palette other : Palette} {count otherCount : Nat}
    {style otherStyle : Style} (member : style ∈ palette.styles.take count)
    (otherMember : otherStyle ∈ other.styles.take otherCount)
    (named : style.name = otherStyle.name) : palette.stem = other.stem := by
  obtain ⟨position, _, isName, _⟩ := mem_take_styles.mp member
  obtain ⟨otherPosition, _, isOtherName, _⟩ := mem_take_styles.mp otherMember
  exact stem_eq_of_append (isName.symm.trans (named.trans isOtherName))

theorem exists_named_iff {palette other : Palette} {count number : Nat}
    (within : count ≤ palette.capacity) :
    (∃ style ∈ palette.styles.take count, style.name = other.stem ++ "-" ++ toString number) ↔
      palette.stem = other.stem ∧ 1 ≤ number ∧ number ≤ count := by
  constructor
  · rintro ⟨style, member, named⟩
    obtain ⟨position, before, isName, _⟩ := mem_take_styles.mp member
    have same := isName.symm.trans named
    have stems := stem_eq_of_append same
    rw [stems, String.append_right_inj] at same
    have counted : position + 1 = number := eq_of_toString_eq same
    exact ⟨stems, by omega, by omega⟩
  · rintro ⟨stems, atLeast, atMost⟩
    have found : number - 1 < palette.directives.length := by
      change _ < palette.capacity
      omega
    refine ⟨⟨palette.stem ++ "-" ++ toString number, palette.directives[number - 1]⟩, ?_, ?_⟩
    · refine mem_take_styles.mpr ⟨number - 1, by omega, ?_, List.getElem?_eq_getElem found⟩
      rw [Nat.sub_add_cancel atLeast]
    · rw [stems]

/-- The style of the first series. -/
def first (palette : Palette) : Style := ⟨palette.styleName 0, palette.directives.headD ""⟩

theorem take_styles {palette : Palette} {count : Nat} (someSeries : 0 < count) :
    ∃ rest, palette.styles.take count = palette.first :: rest := by
  obtain ⟨fewer, rfl⟩ := Nat.exists_eq_succ_of_ne_zero (Nat.ne_of_gt someSeries)
  have begins : ∃ rest, palette.styles = palette.first :: rest := by
    cases palette <;> exact ⟨_, rfl⟩
  obtain ⟨rest, whole⟩ := begins
  exact ⟨rest.take fewer, by rw [whole, List.take_succ_cons]⟩

/-! ### Palettes for bars -/

theorem forBars_ne_lines (series : Nat) : forBars series ≠ .lines := by
  unfold forBars
  split <;> decide

theorem stem_of_bars {palette : Palette} (isBars : palette ≠ .lines) :
    palette.stem = "bar-style" := by
  cases palette with
  | lines => exact absurd rfl isBars
  | bars => rfl
  | twoBars => rfl
  | threeBars => rfl

theorem name_first_of_bars {palette : Palette} (isBars : palette ≠ .lines) :
    palette.first.name = "bar-style-1" := by
  unfold first styleName
  rw [stem_of_bars isBars]
  rfl

/-- No two palettes begin with the same style. -/
theorem eq_of_first {palette other : Palette} (same : palette.first = other.first) :
    palette = other := by
  have directives : palette.directives.headD "" = other.directives.headD "" :=
    congrArg Style.directive same
  cases palette <;> cases other <;> first | rfl | exact absurd directives (by decide)

end TikzChart.Palette
