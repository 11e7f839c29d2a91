import Handoff.Proofs.Component.Outline
import Handoff.Proofs.Token.Occurrences

/-!
# Components use tokens

A widget uses colors, behind it and for its text, and spacings, between the
widgets inside it and around them. Conversion and extraction read these from the
same attributes of a layer, but conversion reads less: only fills that are shown,
only the spacing of a layer with a layout, and nothing below a hidden layer. So
what the component of any part of a design uses is among the tokens of the whole
(`components_use_tokens`). For spacings this holds of those greater than zero,
since others are no tokens.
-/

namespace Handoff

/-! ### What a widget uses -/

namespace Widget

/-- The colors that a widget uses: the one behind it and the one of its text. -/
def usedColors (w : Widget) : List String :=
  w.backgroundColor.toList ++ (w.typography.bind (·.color)).toList

/-- The spacings that a widget uses: the gap in its layout and the padding at each side. -/
def usedSpacings (w : Widget) : List Binary64 :=
  (w.layout.bind (·.gap)).toList
    ++ w.padding.toList.flatMap fun p => [p.top, p.right, p.bottom, p.left]

end Widget

/-! ### What a layer offers -/

theorem Binary64.equals_self_of_pos {x : Binary64} (h : 0 < x) : x.equals x = true := by
  cases x with
  | finite | negativeZero => exact equals_refl rfl
  | infinite negative => simp [equals]
  | nan =>
    obtain ⟨hzero, heq⟩ := zero_eq
    rw [heq] at h
    cases h

/-- A number that replaces a missing one is not greater than zero. -/
theorem Binary64.eq_some_of_pos_getD {x : Option Binary64} (h : 0 < x.getD 0) :
    x = some (x.getD 0) := by
  cases x with
  | some y => rfl
  | none => exact absurd h (by decide +kernel)

namespace Layer

variable {l : Layer}

theorem mem_spacings_iff {x : Binary64} : x ∈ l.spacings ↔ some x ∈ [l.paddingTop, l.paddingRight,
    l.paddingBottom, l.paddingLeft, l.itemSpacing] ∧ 0 < x := by
  simp [spacings]

/-- The color of a layer is that of one of its solid fills. -/
theorem exists_solidFill_of_fillColor? {hex : String} (h : l.fillColor? = some hex) :
    ∃ f ∈ l.solidFills, f.color.hex = hex := by
  obtain ⟨color, hcolor, rfl⟩ := Option.map_eq_some_iff.mp h
  obtain ⟨paint, hpaint, hsolid⟩ := List.exists_of_findSome?_eq_some hcolor
  have hkind : paint.kind = .solid ∧ paint.color = some color := by
    rw [Paint.solidColor?] at hsolid
    split at hsolid
    · next hkind => exact ⟨hkind, hsolid⟩
    · cases hsolid
  refine ⟨⟨l, paint, color⟩, List.mem_filterMap.mpr ⟨paint, (List.mem_filter.mp hpaint).1, ?_⟩, rfl⟩
  rw [hkind.1, hkind.2]

/-- The gap in a layout is the spacing between items. -/
theorem itemSpacing_of_gap {x : Binary64} (h : l.flexLayout?.bind (·.gap) = some x) :
    l.itemSpacing = some x := by
  obtain ⟨layout, hlayout, hgap⟩ := Option.bind_eq_some_iff.mp h
  have heq : layout.gap = l.itemSpacing.filter fun gap => !gap.equals 0 := by
    unfold flexLayout? at hlayout
    cases hmode : l.layoutMode with
    | none => simp [hmode] at hlayout
    | some mode =>
      cases mode with
      | none => simp [hmode] at hlayout
      | horizontal | vertical =>
        simp only [hmode, Option.bind_eq_bind, Option.bind_some, Option.pure_def,
          Option.some.injEq] at hlayout
        rw [← hlayout]
  exact (Option.filter_eq_some_iff.mp (heq.symm.trans hgap)).1

/-- A padding that is greater than zero is given for its side. -/
theorem mem_paddings_of_pos {p : Padding} (h : l.padding? = some p) {x : Binary64} (hpos : 0 < x)
    (hx : x ∈ [p.top, p.right, p.bottom, p.left]) :
    some x ∈ [l.paddingTop, l.paddingRight, l.paddingBottom, l.paddingLeft] := by
  rw [padding?] at h
  split at h
  · obtain rfl := Option.some.inj h
    have hgiven : ∀ side : Option Binary64, x = side.getD 0 → some x = side := by
      rintro side rfl
      exact (Binary64.eq_some_of_pos_getD hpos).symm
    simp only [List.mem_cons, List.not_mem_nil, or_false] at hx ⊢
    exact hx.imp (hgiven _) (.imp (hgiven _) (.imp (hgiven _) (hgiven _)))
  · cases h

variable (conversion : ConversionOptions) (classifier : Classifier)

/-- The colors of a widget are those of solid fills of its layer. -/
theorem exists_solidFill_of_mem_usedColors {hex : String}
    (h : hex ∈ (l.widget conversion classifier).usedColors) :
    ∃ f ∈ l.solidFills, f.color.hex = hex := by
  refine exists_solidFill_of_fillColor? ?_
  rw [widget] at h
  split at h
  · simp [Widget.usedColors, Widget.placeholder] at h
  · by_cases htext : l.kind = .text
    · cases hstyle : l.style with
      | none => simp [Widget.usedColors, htext, typography?, hstyle] at h
      | some style => simpa [Widget.usedColors, htext, typography?, hstyle] using h
    · simpa [Widget.usedColors, htext] using h

/-- The spacings of a widget that are greater than zero are those that its layer offers. -/
theorem mem_spacings_of_mem_usedSpacings {x : Binary64}
    (h : x ∈ (l.widget conversion classifier).usedSpacings) (hpos : 0 < x) : x ∈ l.spacings := by
  refine mem_spacings_iff.mpr ⟨?_, hpos⟩
  rw [widget] at h
  split at h
  · simp [Widget.usedSpacings, Widget.placeholder] at h
  · rw [Widget.usedSpacings, List.mem_append, List.mem_flatMap] at h
    rcases h with hgap | ⟨p, hp, hx⟩
    · rw [itemSpacing_of_gap (Option.mem_toList.mp hgap)]
      simp
    · have hside := mem_paddings_of_pos (Option.mem_toList.mp hp) hpos hx
      exact List.mem_append_left [l.itemSpacing] hside

end Layer

/-! ### What a component uses -/

namespace Node

/-- The widgets of a component are those of layers of the design. -/
theorem exists_layer_of_mem_values (conversion : ConversionOptions) (classifier : Classifier)
    {n : Node} {w : Widget} (h : w ∈ (convert conversion classifier n).values) :
    ∃ l ∈ n.values, l.widget conversion classifier = w := by
  rw [values_convert] at h
  obtain ⟨p, hp, hw⟩ := List.mem_map.mp h
  refine ⟨p.tree.value, ?_, hw⟩
  have htree : p.tree ∈ (n.placesFrom []).map Place.tree :=
    List.mem_map_of_mem (List.mem_of_mem_filter hp)
  rw [Tree.map_tree_placesFrom] at htree
  rw [Tree.values_eq_map_subtrees]
  exact List.mem_map_of_mem htree

end Node

namespace TokenSet

/-- **Components use tokens.** The colors of the component of any part of a forest are the hex forms
of color tokens of the forest, and its gaps and paddings that are greater than zero are equal to
spacing tokens. -/
theorem components_use_tokens (roots : Forest Layer) {n : Node} (hn : n ∈ roots.subtrees)
    (conversion : ConversionOptions) (classifier : Classifier) :
    ∀ w ∈ (n.convert conversion classifier).values,
      (∀ hex ∈ w.usedColors, ∃ token ∈ (extract roots {}).colors, token.hex = hex)
        ∧ ∀ x ∈ w.usedSpacings, 0 < x →
          ∃ token ∈ (extract roots {}).spacing, token.value.equals x = true := by
  intro w hw
  obtain ⟨l, hl, rfl⟩ := Node.exists_layer_of_mem_values conversion classifier hw
  have hlayer := Forest.mem_values_of_mem_subtrees hn hl
  rw [Forest.values_eq_map_walk] at hlayer
  obtain ⟨visit, hvisit, rfl⟩ := List.mem_map.mp hlayer
  have hkeys := everyKey_extract roots {}
  refine ⟨fun hex hhex => ?_, fun x hx hpos => ?_⟩
  · obtain ⟨f, hf, rfl⟩ := Layer.exists_solidFill_of_mem_usedColors conversion classifier hhex
    exact hkeys.colors rfl f (List.mem_flatMap.mpr ⟨visit, hvisit, hf⟩)
  · have hspacing := Layer.mem_spacings_of_mem_usedSpacings conversion classifier hx hpos
    obtain ⟨token, htoken, hsame⟩ :=
      hkeys.spacing rfl x (List.mem_flatMap.mpr ⟨visit, hvisit, hspacing⟩)
    refine ⟨token, htoken, ?_⟩
    rcases hsame with rfl | hequal
    · exact Binary64.equals_self_of_pos hpos
    · exact hequal

/-- A card whose padding differs from side to side, with the texts of two colors in it. -/
theorem components_use_tokens_of_card :
    let note (id : String) (fill : Color) : Node :=
      .leaf {
        id := id
        kind := .text
        fills := [{ kind := .solid, color := some fill }]
        style := some {} }
    let card : Node :=
      ⟨{ id := "1:1"
         kind := .frame
         fills := [{ kind := .solid, color := some ⟨1, 1, 1, 1⟩ }]
         layoutMode := some .vertical
         itemSpacing := some 8
         paddingTop := some 16
         paddingLeft := some 24 },
        [note "1:2" ⟨0, 0, 0, 1⟩, note "1:3" ⟨1, 0, 0, 1⟩]⟩
    let page : Node := ⟨{ id := "0:1", kind := .canvas }, [card]⟩
    let used := (card.convert {} .standard).values
    used.flatMap Widget.usedColors = ["#FFFFFF", "#000000", "#FF0000"]
      ∧ used.flatMap Widget.usedSpacings = [8, 16, 0, 0, 24]
      ∧ ∀ w ∈ used,
        (∀ hex ∈ w.usedColors, ∃ token ∈ (extract [page] {}).colors, token.hex = hex)
          ∧ ∀ x ∈ w.usedSpacings, 0 < x →
            ∃ token ∈ (extract [page] {}).spacing, token.value.equals x = true := by
  intro note card page used
  have hcard : card ∈ Forest.subtrees [page] := by
    simp [Forest.subtrees, page, Tree.subtrees_node, Tree.self_mem_subtrees]
  exact ⟨by decide +kernel, by decide +kernel, components_use_tokens [page] hcard {} .standard⟩

end TokenSet

end Handoff
