import Handoff.Proofs.Binary64.Equality
import Handoff.Proofs.Distinct
import Handoff.Proofs.Tree
import Handoff.Token.Extract

/-!
# Tokens are first occurrences

What the layers of a forest offer is listed in visiting order: solid fills,
styled texts, and the first shadow of each layer. The tokens of a forest are
those of the first occurrences in these lists, where fills are the same that have
the same hex form, texts that have the same font, size and weight, and shadows
that have the same blur and displacement (`extract_first_occurrences`).
-/

namespace Handoff

/-! ### What layers offer -/

/-- A solid fill with its color, and the layer that it is on. -/
structure SolidFill where
  /-- The layer. -/
  layer : Layer
  /-- The fill. -/
  paint : Paint
  /-- The color of the fill. -/
  color : Color

namespace SolidFill

/-- The token that a solid fill gives. -/
def token (f : SolidFill) : ColorToken where
  name := Token.colorName f.layer.name f.color.hex
  hex := f.color.hex
  rgb := f.color.rgb8
  opacity := f.color.a * f.paint.opacity.getD 1

/-- Two fills have the same hex form. -/
def SameHex (f g : SolidFill) : Prop := f.color.hex = g.color.hex

instance : DecidableRel SameHex := fun _ _ => inferInstanceAs (Decidable (_ = _))

end SolidFill

/-- The style of a text that has a font family and a font size. -/
structure StyledText where
  /-- The style. -/
  style : TextStyle
  /-- The font family. -/
  family : String
  /-- The font size. -/
  size : Binary64

namespace StyledText

/-- The weight of the font as a whole number, 400 where there is none. -/
def weight (t : StyledText) : UInt16 :=
  match t.style.fontWeight with
  | some weight => Layer.wholeWeight weight
  | none => 400

/-- The token that a styled text gives. -/
def token (t : StyledText) : TypographyToken where
  name := Token.typographyName t.size t.weight
  fontFamily := t.family
  fontSize := t.size
  fontWeight := t.weight
  lineHeight := t.style.lineHeight.getD (t.size * 1.2)
  letterSpacing := t.style.letterSpacing

/-- Two texts have the same font, size and weight. -/
def SameFont (s t : StyledText) : Prop :=
  s.family = t.family ∧ SameNumber s.size t.size ∧ s.weight = t.weight

instance : DecidableRel SameFont := fun _ _ => inferInstanceAs (Decidable (_ ∧ _))

end StyledText

/-- The first shadow of a layer. -/
structure FirstShadow where
  /-- The layer. -/
  layer : Layer
  /-- The shadow. -/
  shadow : Effect

namespace FirstShadow

/-- How far the shadow is blurred. -/
def blur (s : FirstShadow) : Binary64 := s.shadow.radius.getD 0

/-- The displacement to the right. -/
def x (s : FirstShadow) : Binary64 := (s.shadow.offset.map (·.x)).getD 0

/-- The displacement downwards. -/
def y (s : FirstShadow) : Binary64 := (s.shadow.offset.map (·.y)).getD 0

/-- The token that a shadow gives. A shadow without a color is black. -/
def token (s : FirstShadow) : ShadowToken where
  name := Token.shadowName s.layer.name (s.shadow.kind = .innerShadow)
  inset := s.shadow.kind = .innerShadow
  x := s.x
  y := s.y
  blur := s.blur
  spread := s.shadow.spread.getD 0
  color := (s.shadow.color.getD .black).hex
  opacity := (s.shadow.color.getD .black).a

/-- Two shadows have the same blur and displacement. -/
def SameShape (s t : FirstShadow) : Prop :=
  SameNumber s.blur t.blur ∧ SameNumber s.x t.x ∧ SameNumber s.y t.y

instance : DecidableRel SameShape := fun _ _ => inferInstanceAs (Decidable (_ ∧ _))

end FirstShadow

namespace Layer

/-- The solid fills of a layer that have a color. -/
def solidFills (l : Layer) : List SolidFill :=
  l.fills.filterMap fun paint => match paint.kind, paint.color with
    | .solid, some color => some ⟨l, paint, color⟩
    | _, _ => none

/-- The style of a text layer with a font family and a font size. -/
def styledText? (l : Layer) : Option StyledText :=
  match l.kind, l.style with
  | .text, some style => match style.fontFamily, style.fontSize with
    | some family, some size => some ⟨style, family, size⟩
    | _, _ => none
  | _, _ => none

/-- The first effect of a layer that is a shadow, behind it or inside. -/
def firstShadow? (l : Layer) : Option FirstShadow :=
  (l.effects.find? fun e => e.kind = .dropShadow ∨ e.kind = .innerShadow).map (⟨l, ·⟩)

theorem colorTokens_eq (l : Layer) : l.colorTokens = l.solidFills.map SolidFill.token := by
  rw [colorTokens, solidFills, List.map_filterMap]
  refine List.filterMap_congr fun paint _ => ?_
  cases hkind : paint.kind <;> cases hcolor : paint.color <;>
    simp [Paint.solidColor?, Paint.effectiveOpacity, SolidFill.token, hkind, hcolor]

theorem typographyToken?_eq (l : Layer) : l.typographyToken? = l.styledText?.map StyledText.token := by
  have hweight : ∀ style family size, (StyledText.mk style family size).weight
      = (style.fontWeight.map wholeWeight).getD regularWeight := by
    intro style family size
    cases h : style.fontWeight <;> simp [StyledText.weight, h, regularWeight]
  by_cases hkind : l.kind = .text
  · have hguard : guard (l.kind = .text) = some () := if_pos hkind
    rw [typographyToken?, hguard]
    cases hstyle : l.style with
    | none => simp [styledText?, hkind, hstyle]
    | some style =>
      cases hfamily : style.fontFamily <;> cases hsize : style.fontSize <;>
        simp [styledText?, StyledText.token, lineHeightRatio, hkind, hstyle, hfamily, hsize, hweight]
  · have hnone : l.styledText? = none := by
      unfold styledText?
      split
      · next h _ => exact absurd h hkind
      · rfl
    have hguard : guard (l.kind = .text) = (none : Option Unit) := if_neg hkind
    rw [hnone, typographyToken?, hguard]
    rfl

theorem shadowToken?_eq (l : Layer) : l.shadowToken? = l.firstShadow?.map FirstShadow.token := by
  have hfind : (l.effects.find? fun e => e.kind = .dropShadow ∨ e.kind = .innerShadow)
      = l.effects.find? Effect.isShadow := by
    congr 1
    funext e
    cases h : e.kind <;> simp [Effect.isShadow, h]
  rw [shadowToken?, firstShadow?, hfind, Option.map_map]
  congr 1
  funext e
  have hinset : (e.kind == .innerShadow) = decide (e.kind = .innerShadow) := rfl
  cases hoffset : e.offset <;>
    simp [FirstShadow.token, FirstShadow.x, FirstShadow.y, FirstShadow.blur, hoffset, hinset, default]

end Layer

namespace TokenSet

/-- The solid fills of a forest, in visiting order and within a layer in order. -/
def solidFills (roots : Forest Layer) : List SolidFill :=
  roots.walk.flatMap fun visit => visit.1.value.solidFills

/-- The styled texts of a forest, in visiting order. -/
def styledTexts (roots : Forest Layer) : List StyledText :=
  roots.walk.filterMap fun visit => visit.1.value.styledText?

/-- The first shadows of the layers of a forest, in visiting order. -/
def firstShadows (roots : Forest Layer) : List FirstShadow :=
  roots.walk.filterMap fun visit => visit.1.value.firstShadow?

/-- The spacings of the layers of a forest that are greater than zero, in visiting order. -/
def positiveSpacings (roots : Forest Layer) : List Binary64 :=
  roots.walk.flatMap fun visit => visit.1.value.spacings

theorem colorTokens_eq (roots : Forest Layer) :
    roots.values.flatMap Layer.colorTokens = (solidFills roots).map SolidFill.token := by
  simp only [Forest.values_eq_map_walk, solidFills, List.flatMap_map, List.map_flatMap,
    Layer.colorTokens_eq]

theorem typographyTokens_eq (roots : Forest Layer) :
    roots.values.filterMap Layer.typographyToken? = (styledTexts roots).map StyledText.token := by
  simp only [Forest.values_eq_map_walk, styledTexts, List.filterMap_map, List.map_filterMap,
    Function.comp_def, Layer.typographyToken?_eq]

theorem shadowTokens_eq (roots : Forest Layer) :
    roots.values.filterMap Layer.shadowToken? = (firstShadows roots).map FirstShadow.token := by
  simp only [Forest.values_eq_map_walk, firstShadows, List.filterMap_map, List.map_filterMap,
    Function.comp_def, Layer.shadowToken?_eq]

theorem spacings_eq (roots : Forest Layer) :
    roots.values.flatMap Layer.spacings = positiveSpacings roots := by
  simp only [Forest.values_eq_map_walk, positiveSpacings, List.flatMap_map]

/-! ### Extraction -/

/-- The tokens of the kinds asked for are those of the first occurrences. -/
structure FirstOccurrences (roots : Forest Layer) (kinds : TokenKinds) (t : TokenSet) : Prop where
  colors : t.colors =
    if kinds.colors then (firstOf SolidFill.SameHex (solidFills roots)).map SolidFill.token else []
  typography : t.typography = if kinds.typography then
    (firstOf StyledText.SameFont (styledTexts roots)).map StyledText.token else []
  effects : t.effects = if kinds.effects then
    (firstOf FirstShadow.SameShape (firstShadows roots)).map FirstShadow.token else []

/-- No two tokens of a kind have the same key. -/
structure OnePerKey (t : TokenSet) : Prop where
  colors : t.colors.Pairwise fun a b => a.hex ≠ b.hex
  typography : t.typography.Pairwise fun a b => ¬ (a.fontFamily = b.fontFamily
    ∧ SameNumber a.fontSize b.fontSize ∧ a.fontWeight = b.fontWeight)
  spacing : t.spacing.Pairwise fun a b => ¬ SameNumber a.value b.value
  effects : t.effects.Pairwise fun a b =>
    ¬ (SameNumber a.blur b.blur ∧ SameNumber a.x b.x ∧ SameNumber a.y b.y)

/-- The key of everything offered has a token, in the kinds asked for. -/
structure EveryKey (roots : Forest Layer) (kinds : TokenKinds) (t : TokenSet) : Prop where
  colors : kinds.colors = true → ∀ f ∈ solidFills roots, ∃ token ∈ t.colors,
    token.hex = f.color.hex
  typography : kinds.typography = true → ∀ s ∈ styledTexts roots, ∃ token ∈ t.typography,
    token.fontFamily = s.family ∧ SameNumber token.fontSize s.size ∧ token.fontWeight = s.weight
  spacing : kinds.spacing = true → ∀ x ∈ positiveSpacings roots, ∃ token ∈ t.spacing,
    SameNumber token.value x
  effects : kinds.effects = true → ∀ s ∈ firstShadows roots, ∃ token ∈ t.effects,
    SameNumber token.blur s.blur ∧ SameNumber token.x s.x ∧ SameNumber token.y s.y

theorem typographyKey_eq_iff (a b : TypographyToken) : a.key = b.key ↔
    a.fontFamily = b.fontFamily ∧ SameNumber a.fontSize b.fontSize ∧ a.fontWeight = b.fontWeight := by
  simp [TypographyToken.key, unsignedZero_eq_iff]

theorem shadowKey_eq_iff (a b : ShadowToken) : a.key = b.key ↔
    SameNumber a.blur b.blur ∧ SameNumber a.x b.x ∧ SameNumber a.y b.y := by
  simp [ShadowToken.key, unsignedZero_eq_iff]

theorem sameNumber_symm {x y : Binary64} (h : SameNumber x y) : SameNumber y x :=
  unsignedZero_eq_iff.mp (unsignedZero_eq_iff.mpr h).symm

/-- Sorting leaves the spacings that were kept. -/
theorem pairwise_spacingOf (layers : List Layer) :
    (spacingOf layers).Pairwise fun a b => ¬ SameNumber a.value b.value := by
  have hkept := pairwise_distinctBy Binary64.unsignedZero (layers.flatMap Layer.spacings)
  have hdistinct := hkept.imp fun {x y} h => mt (unsignedZero_eq_iff (x := x) (y := y)).mpr h
  have hperm := List.mergeSort_perm
    (distinctBy Binary64.unsignedZero (layers.flatMap Layer.spacings)) fun x y => decide (x ≤ y)
  rw [spacingOf, List.pairwise_map]
  exact (hperm.pairwise_iff fun h => mt sameNumber_symm h).mpr hdistinct

theorem exists_mem_spacingOf {layers : List Layer} {x : Binary64}
    (hx : x ∈ layers.flatMap Layer.spacings) : ∃ token ∈ spacingOf layers, SameNumber token.value x := by
  obtain ⟨y, hy, hkey⟩ := exists_mem_distinctBy Binary64.unsignedZero hx
  refine ⟨⟨Token.spacingName y, y⟩, ?_, unsignedZero_eq_iff.mp hkey⟩
  exact List.mem_map.mpr ⟨y, List.mem_mergeSort.mpr hy, rfl⟩

theorem firstOccurrences_extract (roots : Forest Layer) (kinds : TokenKinds) :
    FirstOccurrences roots kinds (extract roots kinds) := by
  constructor
  · have hkey : ∀ f g : SolidFill, f.token.hex = g.token.hex ↔ f.SameHex g := fun f g => Iff.rfl
    simp only [extract, colorsOf, colorTokens_eq, distinctBy_map hkey]
  · have hkey : ∀ s t : StyledText, s.token.key = t.token.key ↔ s.SameFont t :=
      fun s t => typographyKey_eq_iff _ _
    simp only [extract, typographyOf, typographyTokens_eq, distinctBy_map hkey]
  · have hkey : ∀ s t : FirstShadow, s.token.key = t.token.key ↔ s.SameShape t :=
      fun s t => shadowKey_eq_iff _ _
    simp only [extract, effectsOf, shadowTokens_eq, distinctBy_map hkey]

theorem onePerKey_extract (roots : Forest Layer) (kinds : TokenKinds) :
    OnePerKey (extract roots kinds) := by
  constructor
  · simp only [extract]
    split
    · exact pairwise_distinctBy _ _
    · exact .nil
  · simp only [extract]
    split
    · exact (pairwise_distinctBy TypographyToken.key _).imp
        fun h => mt (typographyKey_eq_iff _ _).mpr h
    · exact .nil
  · simp only [extract]
    split
    · exact pairwise_spacingOf _
    · exact .nil
  · simp only [extract]
    split
    · exact (pairwise_distinctBy ShadowToken.key _).imp fun h => mt (shadowKey_eq_iff _ _).mpr h
    · exact .nil

theorem everyKey_extract (roots : Forest Layer) (kinds : TokenKinds) :
    EveryKey roots kinds (extract roots kinds) := by
  constructor
  · intro hkind f hf
    have hmem : f.token ∈ (solidFills roots).map SolidFill.token := List.mem_map_of_mem hf
    obtain ⟨token, htoken, hkey⟩ := exists_mem_distinctBy (·.hex) hmem
    refine ⟨token, ?_, hkey⟩
    simpa only [extract, hkind, if_true, colorsOf, colorTokens_eq] using htoken
  · intro hkind s hs
    have hmem : s.token ∈ (styledTexts roots).map StyledText.token := List.mem_map_of_mem hs
    obtain ⟨token, htoken, hkey⟩ := exists_mem_distinctBy TypographyToken.key hmem
    refine ⟨token, ?_, (typographyKey_eq_iff _ _).mp hkey⟩
    simpa only [extract, hkind, if_true, typographyOf, typographyTokens_eq] using htoken
  · intro hkind x hx
    rw [← spacings_eq] at hx
    simpa only [extract, hkind, if_true] using exists_mem_spacingOf hx
  · intro hkind s hs
    have hmem : s.token ∈ (firstShadows roots).map FirstShadow.token := List.mem_map_of_mem hs
    obtain ⟨token, htoken, hkey⟩ := exists_mem_distinctBy ShadowToken.key hmem
    refine ⟨token, ?_, (shadowKey_eq_iff _ _).mp hkey⟩
    simpa only [extract, hkind, if_true, effectsOf, shadowTokens_eq] using htoken

end TokenSet

end Handoff
