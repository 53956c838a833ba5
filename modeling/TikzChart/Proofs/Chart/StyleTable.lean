import TikzChart.Proofs.Chart.Addition

/-!
When a style table takes more styles. It does when styles of one name are equal (`Style.Agree`); the
table then has the old styles and the new ones, and taking them a second time changes nothing.
-/

set_option autoImplicit false

namespace TikzChart

/-- A style that is in the table under one of the names is the style of that name. -/
def Style.Agree (table styles : List Style) : Prop :=
  ∀ style ∈ styles, ∀ other ∈ table, other.name = style.name → other = style

namespace Style

variable {table styles : List Style}

theorem Agree.of_subset {largerTable largerStyles : List Style}
    (agree : Agree largerTable largerStyles) (subset : table ⊆ largerTable)
    (stylesSubset : styles ⊆ largerStyles) : Agree table styles :=
  fun style member other otherMember => agree style (stylesSubset member) other
    (subset otherMember)

theorem mem_addMissing (agree : Agree table styles) (agreeAmong : Agree styles styles)
    {style : Style} : style ∈ addMissing table styles ↔ style ∈ table ∨ style ∈ styles := by
  induction styles generalizing table with
  | nil => simp [addMissing]
  | cons first styles ih =>
      unfold addMissing
      have agreeRest : Agree table styles :=
        agree.of_subset (List.Subset.refl _) (List.subset_cons_self _ _)
      have amongRest : Agree styles styles :=
        agreeAmong.of_subset (List.subset_cons_self _ _) (List.subset_cons_self _ _)
      cases taken : table.any (·.name == first.name) with
      | true =>
          obtain ⟨other, member, named⟩ := List.any_eq_true.mp taken
          have same : other = first :=
            agree first List.mem_cons_self other member (eq_of_beq named)
          have inTable : first ∈ table := same ▸ member
          rw [if_pos rfl, ih agreeRest amongRest, List.mem_cons]
          constructor
          · rintro (old | new)
            · exact .inl old
            · exact .inr (.inr new)
          · rintro (old | rfl | new)
            · exact .inl old
            · exact .inl inTable
            · exact .inr new
      | false =>
          have agreeNext : Agree (table ++ [first]) styles := by
            intro wanted member other otherMember named
            rcases List.mem_append.mp otherMember with old | new
            · exact agreeRest wanted member other old named
            · rw [List.mem_singleton.mp new] at named ⊢
              exact agreeAmong wanted (List.mem_cons_of_mem _ member) first List.mem_cons_self
                named
          rw [if_neg Bool.false_ne_true, ih agreeNext amongRest, List.mem_append,
            List.mem_singleton, List.mem_cons, or_assoc]

theorem Agree.subset_addMissing (agree : Agree table styles) (agreeAmong : Agree styles styles) :
    styles ⊆ addMissing table styles :=
  fun _ member => (mem_addMissing agree agreeAmong).mpr (.inr member)

theorem Agree.addMissing (agree : Agree table styles) (agreeAmong : Agree styles styles) :
    Agree (addMissing table styles) styles := by
  intro style member other otherMember named
  rcases (mem_addMissing agree agreeAmong).mp otherMember with old | new
  · exact agree style member other old named
  · exact agreeAmong style member other new named

/-- Styles that are all there are not added. -/
theorem addMissing_of_subset (defined : styles ⊆ table) : addMissing table styles = table := by
  induction styles with
  | nil => rfl
  | cons style styles ih =>
      obtain ⟨inTable, rest⟩ := List.cons_subset.mp defined
      have taken : table.any (·.name == style.name) = true :=
        List.any_eq_true.mpr ⟨style, inTable, beq_self_eq_true _⟩
      unfold addMissing
      rw [if_pos taken]
      exact ih rest

end Style

/-! ### What a canvas refuses -/

theorem Canvas.of_style? {canvas : Canvas} {name : String} {style : Style}
    (found : canvas.style? name = some style) : style ∈ canvas.styles ∧ style.name = name := by
  unfold Canvas.style? at found
  have named := List.find?_some found
  exact ⟨List.mem_of_find?_eq_some found, eq_of_beq named⟩

namespace Chart

variable {canvas : Canvas} (distinct : (canvas.styles.map Style.name).Nodup)

include distinct

theorem isTaken_eq_false_iff {style : Style} :
    isTaken canvas style = false ↔
      ∀ other ∈ canvas.styles, other.name = style.name → other = style := by
  unfold isTaken
  cases found : canvas.style? style.name with
  | none =>
      refine iff_of_true rfl fun other member named => ?_
      unfold Canvas.style? at found
      exact absurd (beq_iff_eq.mpr named) (List.find?_eq_none.mp found other member)
  | some existing =>
      obtain ⟨member, isNamed⟩ := canvas.of_style? found
      constructor
      · intro sameDirective other otherMember named
        have same : other = existing :=
          List.inj_on_of_nodup_map distinct otherMember member (named.trans isNamed.symm)
        have directives : existing.directive = style.directive :=
          bne_eq_false_iff_eq.mp sameDirective
        calc
          other = ⟨existing.name, existing.directive⟩ := same
          _ = style := by rw [isNamed, directives]
      · intro agrees
        rw [agrees existing member isNamed]
        exact bne_self_eq_false _

theorem find?_isTaken_eq_none_iff {styles : List Style} :
    styles.find? (isTaken canvas) = none ↔ Style.Agree canvas.styles styles := by
  rw [List.find?_eq_none]
  refine forall₂_congr fun style _ => ?_
  rw [Bool.not_eq_true, isTaken_eq_false_iff distinct]

end Chart

/-- What has been accepted is accepted again, with the same commands and with no new style, if the
configuration that it leaves behind does not change it. -/
theorem Addition.drawOn_again {addition : Config → Except ChartError Addition} {chart once : Chart}
    (distinct : (chart.canvas.styles.map Style.name).Nodup)
    (among : ∀ planned, addition chart.config = .ok planned →
      Style.Agree planned.styles planned.styles)
    (later : ∀ planned, addition chart.config = .ok planned →
      addition planned.config = addition chart.config)
    (accepted : drawOn (addition chart.config) chart = (.ok (), once)) :
    ∃ added, once.canvas.commands = chart.canvas.commands ++ added ∧
      drawOn (addition once.config) once =
        (.ok (), { once with canvas := once.canvas.append added }) := by
  rcases drawOn_cases (addition chart.config) chart with
    ⟨_, drawn⟩ | ⟨planned, isPlanned, free, drawn⟩
  · rw [drawn] at accepted
    cases accepted
  · rw [drawn] at accepted
    cases accepted
    refine ⟨planned.commands, rfl, ?_⟩
    have agree := (Chart.find?_isTaken_eq_none_iff distinct).mp free
    have agreeAmong := among planned isPlanned
    let table := Style.addMissing chart.canvas.styles planned.styles
    have distinctNow : (table.map Style.name).Nodup := Style.nodup_addMissing _ _ distinct
    have freeNow : planned.styles.find? (Chart.isTaken
        ((chart.canvas.withStyles planned.styles).append planned.commands)) = none :=
      (Chart.find?_isTaken_eq_none_iff distinctNow).mpr (agree.addMissing agreeAmong)
    have same : Style.addMissing table planned.styles = table :=
      Style.addMissing_of_subset (agree.subset_addMissing agreeAmong)
    rw [later planned isPlanned, isPlanned]
    unfold drawOn
    dsimp only
    rw [freeNow]
    dsimp only [Canvas.withStyles, Canvas.append]
    rw [same]

end TikzChart
