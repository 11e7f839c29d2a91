import Handoff.Proofs.Binary64.Overflow
import Handoff.Proofs.Import.Finite
import Handoff.Proofs.Import.Run
import Handoff.Proofs.Token.Spacing
import Handoff.Proofs.Token.Text

/-!
# Numbers of extracted tokens

Most numbers of a token stand in the design as they are. Two are products: the
opacity of a color, which is that of the color times that of the fill, and the line
height of a text that has none, which is the font size times a ratio. Nothing keeps
a product in the range of the format. So the numbers of the tokens of a design are
finite exactly where these products are in range
(`TokenSet.allFinite_extract_iff`), and where one is not, there is a `null` in the
token file, which cannot be read back (`Import.tokens_in_range_iff`).
-/

namespace Handoff

open Binary64

/-! ### Numbers of what layers offer -/

namespace Layer

variable {l : Layer}

/-- The numbers of a layer that tokens are made from are finite. -/
structure OffersFinite (l : Layer) : Prop where
  fills : ∀ p ∈ l.fills, AllFinite p.numbers
  effects : ∀ e ∈ l.effects, AllFinite e.numbers
  spacings : ∀ x ∈ l.spacings, x.isFinite = true
  style : ∀ s ∈ l.style, AllFinite s.numbers

theorem OffersFinite.of_numbers (h : AllFinite l.numbers) : l.OffersFinite := by
  simp only [numbers, allFinite_append, allFinite_flatMap, allFinite_toList] at h
  obtain ⟨⟨⟨⟨⟨⟨⟨⟨⟨⟨⟨-, hfills⟩, -⟩, -⟩, heffects⟩, -⟩, hitems⟩, htop⟩, hright⟩, hbottom⟩, hleft⟩,
    hstyle⟩ := h
  refine ⟨hfills, heffects, fun x hx => ?_, fun s hs => hstyle s (Option.mem_toList.mpr hs)⟩
  obtain ⟨hgiven, -⟩ := mem_spacings_iff.mp hx
  simp only [List.mem_cons, List.not_mem_nil, or_false] at hgiven
  rcases hgiven with hx | hx | hx | hx | hx
  · exact htop x hx.symm
  · exact hright x hx.symm
  · exact hbottom x hx.symm
  · exact hleft x hx.symm
  · exact hitems x hx.symm

namespace OffersFinite

variable (h : l.OffersFinite)

include h

theorem solidFill {f : SolidFill} (hf : f ∈ l.solidFills) :
    f.color.a.isFinite = true ∧ (f.paint.opacity.getD 1).isFinite = true := by
  obtain ⟨paint, hpaint, hfill⟩ := List.mem_filterMap.mp hf
  obtain ⟨hopacity, hcolors⟩ := allFinite_append.mp (h.fills paint hpaint)
  split at hfill
  · next color _ hcolor =>
    obtain rfl := Option.some.inj hfill
    have hnumbers := allFinite_flatMap_toList.mp hcolors color hcolor
    simp only [Color.numbers, allFinite_cons] at hnumbers
    exact ⟨hnumbers.2.2.2.1, isFinite_getD (allFinite_toList.mp hopacity) (by decide +kernel)⟩
  · cases hfill

theorem styledText {t : StyledText} (ht : l.styledText? = some t) :
    t.size.isFinite = true ∧ (∀ x ∈ t.style.lineHeight, x.isFinite = true)
      ∧ AllFinite t.style.letterSpacing.toList := by
  unfold styledText? at ht
  split at ht
  · next style _ hstyle =>
    split at ht
    · next family size _ hsize =>
      obtain rfl := Option.some.inj ht
      have hnumbers := h.style style hstyle
      simp only [TextStyle.numbers, allFinite_append] at hnumbers
      obtain ⟨⟨⟨hsizes, -⟩, hheights⟩, hletters⟩ := hnumbers
      exact ⟨allFinite_toList.mp hsizes size hsize, allFinite_toList.mp hheights, hletters⟩
    · cases ht
  · cases ht

theorem firstShadow {s : FirstShadow} (hs : l.firstShadow? = some s) :
    AllFinite s.token.numbers := by
  obtain ⟨effect, heffect, rfl⟩ := Option.map_eq_some_iff.mp hs
  have hnumbers := h.effects effect (List.mem_of_find?_eq_some heffect)
  simp only [Effect.numbers, allFinite_append] at hnumbers
  obtain ⟨⟨⟨hradius, hspread⟩, hcolors⟩, hoffsets⟩ := hnumbers
  have hoffset : ∀ o ∈ effect.offset, o.x.isFinite = true ∧ o.y.isFinite = true := fun o ho => by
    simpa [Offset.numbers, allFinite_cons, allFinite_nil]
      using allFinite_flatMap_toList.mp hoffsets o ho
  have halpha : (effect.color.getD .black).a.isFinite = true := by
    cases hcolor : effect.color with
    | none => decide +kernel
    | some color =>
      have hcolor' := allFinite_flatMap_toList.mp hcolors color hcolor
      simp only [Color.numbers, allFinite_cons] at hcolor'
      exact hcolor'.2.2.2.1
  have hx : ∀ x ∈ effect.offset.map (·.x), x.isFinite = true := by
    simpa using fun o ho => (hoffset o ho).1
  have hy : ∀ y ∈ effect.offset.map (·.y), y.isFinite = true := by
    simpa using fun o ho => (hoffset o ho).2
  simp only [ShadowToken.numbers, allFinite_cons]
  exact ⟨isFinite_getD hx isFinite_zero, isFinite_getD hy isFinite_zero,
    isFinite_getD (allFinite_toList.mp hradius) isFinite_zero,
    isFinite_getD (allFinite_toList.mp hspread) isFinite_zero, halpha, allFinite_nil⟩

end OffersFinite

end Layer

/-! ### Numbers of extracted tokens -/

namespace TokenSet

/-- The products that tokens have for numbers are in the range of the format. -/
structure ProductsInRange (roots : Forest Layer) (kinds : TokenKinds) : Prop where
  colors : kinds.colors = true → ∀ f ∈ firstOf SolidFill.SameHex (solidFills roots),
    f.color.a.ProductInRange (f.paint.opacity.getD 1)
  typography : kinds.typography = true → ∀ t ∈ firstOf StyledText.SameFont (styledTexts roots),
    t.style.lineHeight = none → t.size.ProductInRange 1.2

variable {roots : Forest Layer} {kinds : TokenKinds} (h : ∀ n ∈ roots, AllFinite (Node.numbers n))

include h

theorem offersFinite_of_mem_walk {visit : Node × Nat} (hvisit : visit ∈ roots.walk) :
    visit.1.value.OffersFinite := by
  have hvalue : visit.1.value ∈ roots.values := by
    rw [Forest.values_eq_map_walk]
    exact List.mem_map_of_mem hvisit
  rw [Forest.values, Tree.valuesAll_eq_flatMap, List.mem_flatMap] at hvalue
  obtain ⟨n, hn, hl⟩ := hvalue
  exact .of_numbers (allFinite_flatMap.mp (h n hn) _ hl)

theorem allFinite_solidFill {f : SolidFill}
    (hf : f ∈ firstOf SolidFill.SameHex (solidFills roots)) :
    AllFinite f.token.numbers ↔ f.color.a.ProductInRange (f.paint.opacity.getD 1) := by
  obtain ⟨visit, hvisit, hfill⟩ := List.mem_flatMap.mp (mem_of_mem_firstOf _ hf)
  obtain ⟨halpha, hopacity⟩ := (offersFinite_of_mem_walk h hvisit).solidFill hfill
  rw [ColorToken.numbers, allFinite_singleton]
  exact isFinite_mul_iff halpha hopacity

theorem allFinite_styledText {t : StyledText}
    (ht : t ∈ firstOf StyledText.SameFont (styledTexts roots)) : AllFinite t.token.numbers
      ↔ (t.style.lineHeight = none → t.size.ProductInRange 1.2) := by
  obtain ⟨visit, hvisit, htext⟩ := List.mem_filterMap.mp (mem_of_mem_firstOf _ ht)
  obtain ⟨hsize, hheight, hletters⟩ := (offersFinite_of_mem_walk h hvisit).styledText htext
  have hratio : (1.2 : Binary64).isFinite = true := by decide +kernel
  simp only [TypographyToken.numbers, allFinite_append, allFinite_cons, StyledText.token, hsize,
    hletters, allFinite_nil, and_true, true_and]
  cases hgiven : t.style.lineHeight with
  | none => simpa using isFinite_mul_iff hsize hratio
  | some height => simpa using hheight height hgiven

/-- The space between letters is taken from the design. -/
theorem allFinite_letterSpacing : ∀ s ∈ (extract roots kinds).typography,
    AllFinite s.letterSpacing.toList := by
  rw [(firstOccurrences_extract roots kinds).typography]
  split
  · refine List.forall_mem_map.mpr fun t ht => ?_
    obtain ⟨visit, hvisit, htext⟩ := List.mem_filterMap.mp (mem_of_mem_firstOf _ ht)
    exact ((offersFinite_of_mem_walk h hvisit).styledText htext).2.2
  · exact List.forall_mem_nil _

theorem isFinite_of_mem_spacingValues {x : Binary64} (hx : x ∈ spacingValues roots.values) :
    x.isFinite = true := by
  have hgiven := mem_spacingValues_iff.mp hx
  rw [spacings_eq] at hgiven
  obtain ⟨visit, hvisit, hspacing⟩ := List.mem_flatMap.mp hgiven
  exact (offersFinite_of_mem_walk h hvisit).spacings x hspacing

theorem allFinite_firstShadow {s : FirstShadow}
    (hs : s ∈ firstOf FirstShadow.SameShape (firstShadows roots)) : AllFinite s.token.numbers := by
  obtain ⟨visit, hvisit, hshadow⟩ := List.mem_filterMap.mp (mem_of_mem_firstOf _ hs)
  exact (offersFinite_of_mem_walk h hvisit).firstShadow hshadow

/-- **The numbers of tokens are finite where the products among them are in range**, and only
there. -/
theorem allFinite_extract_iff :
    AllFinite (extract roots kinds).numbers ↔ ProductsInRange roots kinds := by
  have hfirst := firstOccurrences_extract roots kinds
  have hcolors : (∀ c ∈ (extract roots kinds).colors, AllFinite c.numbers) ↔ (kinds.colors = true →
      ∀ f ∈ firstOf SolidFill.SameHex (solidFills roots),
        f.color.a.ProductInRange (f.paint.opacity.getD 1)) := by
    rw [hfirst.colors]
    split
    · next hkind =>
      rw [List.forall_mem_map]
      exact ⟨fun hall _ f hf => (allFinite_solidFill h hf).mp (hall f hf),
        fun hall f hf => (allFinite_solidFill h hf).mpr (hall hkind f hf)⟩
    · next hkind => simp [hkind]
  have htypography : (∀ s ∈ (extract roots kinds).typography, AllFinite s.numbers) ↔
      (kinds.typography = true → ∀ t ∈ firstOf StyledText.SameFont (styledTexts roots),
        t.style.lineHeight = none → t.size.ProductInRange 1.2) := by
    rw [hfirst.typography]
    split
    · next hkind =>
      rw [List.forall_mem_map]
      exact ⟨fun hall _ t ht => (allFinite_styledText h ht).mp (hall t ht),
        fun hall t ht => (allFinite_styledText h ht).mpr (hall hkind t ht)⟩
    · next hkind => simp [hkind]
  have hspacing : ∀ s ∈ (extract roots kinds).spacing, AllFinite s.numbers := by
    dsimp only [extract]
    split
    · rw [spacingOf_eq]
      exact List.forall_mem_map.mpr fun x hx =>
        allFinite_singleton.mpr (isFinite_of_mem_spacingValues h hx)
    · exact List.forall_mem_nil _
  have heffects : ∀ s ∈ (extract roots kinds).effects, AllFinite s.numbers := by
    rw [hfirst.effects]
    split
    · exact List.forall_mem_map.mpr fun s hs => allFinite_firstShadow h hs
    · exact List.forall_mem_nil _
  simp only [numbers, allFinite_append, allFinite_flatMap, hcolors, htypography]
  exact ⟨fun hall => ⟨hall.1.1.1, hall.1.1.2⟩,
    fun hrange => ⟨⟨⟨hrange.colors, hrange.typography⟩, hspacing⟩, heffects⟩⟩

end TokenSet

/-! ### The token file -/

namespace Import

/--
**The token file of a design is read back where the products in it are in range**, and only there,
whatever kinds of tokens are extracted: then all its numbers are finite and it has no `null`, and
else there is a `null` where a number is required.
-/
theorem tokens_in_range_iff {text : String} {loaded : Export}
    (hload : Export.load text = .ok loaded) (request : ImportRequest) (settings : Settings)
    (time : String) :
    let found := tokens request settings time loaded.roots
    let InRange := TokenSet.ProductsInRange loaded.roots settings.extract
    (AllFinite found.numbers ↔ InRange)
      ∧ ((∃ v, Json.read? found.text = some v ∧ v.IsFilled) ↔ InRange)
      ∧ ((∃ t, (Json.read? found.text).bind TokenSet.ofJson? = some t) ↔ InRange)
      ∧ ∀ project, run request settings time (some text) = .ok project →
        ∀ f : SourceFile, f.path = Project.tokensPath → (f ∈ project.themeFiles
          ↔ settings.generate.tokenFile = true ∧ f = ⟨Project.tokensPath, found.text, .theme⟩) := by
  intro found InRange
  have hroots := Export.allFinite_load hload
  have hnumbers : AllFinite found.numbers ↔ InRange := TokenSet.allFinite_extract_iff hroots
  refine ⟨hnumbers, ?_, ?_, fun project hproject f hpath => ?_⟩
  · rw [found.read?_text, ← hnumbers, ← TokenSet.isFilled_toJson_iff]
    simp
  · rw [← hnumbers]
    exact TokenSet.exists_read_iff (TokenSet.allFinite_letterSpacing hroots)
  · rw [run_eq hload] at hproject
    obtain ⟨nodes, hselected⟩ := exists_selected hproject
    have hne : ∀ content, f ≠ ⟨Project.themePath, content, .theme⟩ := by
      rintro content rfl
      exact absurd (show Project.themePath = Project.tokensPath from hpath) (by decide)
    rw [themeFiles_eq hselected hproject, Project.tokenFiles, List.mem_cons, or_iff_right (hne _)]
    split
    · next hfile => rw [List.mem_singleton, and_iff_right hfile]
    · next hfile => exact iff_of_false List.not_mem_nil fun h => hfile h.1

/-- A box with a fill that has an opacity and whose color has one. -/
def filledBox (alpha opacity : Binary64) : Json :=
  .object [("id", .string "1:1"), ("name", .string "Box"), ("type", .string "RECTANGLE"),
    ("fills", .array [.object [("type", .string "SOLID"), ("opacity", .float opacity),
      ("color", .object [("r", .integer 1), ("g", .integer 0), ("b", .integer 0),
        ("a", .float alpha)])]])]

/-- The layer of such a box. -/
def filledLayer (alpha opacity : Binary64) : Layer where
  id := "1:1"
  name := "Box"
  kind := .rectangle
  fills := [{ kind := .solid, color := some ⟨1, 0, 0, alpha⟩, opacity := some opacity }]

theorem load_filledBox {alpha opacity : Binary64} (halpha : alpha.isFinite = true)
    (hopacity : opacity.isFinite = true) : Export.load (filledBox alpha opacity).pretty
      = .ok (.ofNode (.leaf (filledLayer alpha opacity))) := by
  have hbit : ∀ n ∈ [0, 1], (Json.integer n).IsRegular := by
    simp only [List.forall_mem_cons]
    exact ⟨.integer (by decide) (by decide), .integer (by decide) (by decide), by simp⟩
  have hregular : (filledBox alpha opacity).IsRegular := by
    simp [filledBox, Json.IsRegular.float halpha, Json.IsRegular.float hopacity, hbit]
  have hdepth : (filledBox alpha opacity).depth = 4 := by
    simp [filledBox, Json.depth, Json.depthOfFields, Json.depthOfItems]
  exact Export.load_pretty_of_isRegular hregular (hdepth.trans_le (by decide)) rfl

/-- A box that is half transparent, with a fill that is. -/
theorem tokens_in_range_of_box :
    let text := (filledBox 0.5 0.5).pretty
    let found := tokens {} {} "now" [.leaf (filledLayer 0.5 0.5)]
    Export.load text = .ok (.ofNode (.leaf (filledLayer 0.5 0.5)))
      ∧ TokenSet.ProductsInRange [.leaf (filledLayer 0.5 0.5)] {}
      ∧ (∃ v, Json.read? found.text = some v ∧ v.IsFilled)
      ∧ ∃ t, (Json.read? found.text).bind TokenSet.ofJson? = some t := by
  intro text found
  have hload : Export.load text = .ok (.ofNode (.leaf (filledLayer 0.5 0.5))) :=
    load_filledBox (by decide +kernel) (by decide +kernel)
  obtain ⟨hnumbers, hfilled, hread, -⟩ := tokens_in_range_iff hload {} {} "now"
  have hrange := hnumbers.mp (by decide +kernel)
  exact ⟨hload, hrange, hfilled.mpr hrange, hread.mpr hrange⟩

/-- A box whose opacities are in the range of the format while their product is not. -/
theorem not_allFinite_of_box :
    let found := tokens {} {} "now" [.leaf (filledLayer 1e200 1e200)]
    Export.load (filledBox 1e200 1e200).pretty = .ok (.ofNode (.leaf (filledLayer 1e200 1e200)))
      ∧ ¬ AllFinite found.numbers
      ∧ (Json.read? found.text).bind TokenSet.ofJson? = none := by
  intro found
  have hload : Export.load (filledBox 1e200 1e200).pretty
      = .ok (.ofNode (.leaf (filledLayer 1e200 1e200))) :=
    load_filledBox (by decide +kernel) (by decide +kernel)
  have hinfinite : ¬ AllFinite found.numbers := by decide +kernel
  have hletters : ∀ s ∈ found.typography, AllFinite s.letterSpacing.toList := by decide +kernel
  refine ⟨hload, hinfinite, Option.eq_none_iff_forall_ne_some.mpr fun t ht => hinfinite ?_⟩
  exact (TokenSet.exists_read_iff hletters).mp ⟨t, ht⟩

end Import

end Handoff
