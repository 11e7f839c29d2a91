import Handoff.Scene.Layer
import Handoff.Token.Basic
import Handoff.Token.Name

/-!
# Extraction of tokens

Every layer offers tokens: one for each solid fill, one for its text style, one
for each padding and for the spacing between items, and one for its first
shadow. They are taken in visiting order, and of those with the same key the
first is kept. Spacings are then sorted.
-/

namespace Handoff

/-- The kinds of tokens to extract. -/
structure TokenKinds where
  /-- Whether to extract colors. -/
  colors : Bool := true
  /-- Whether to extract text styles. -/
  typography : Bool := true
  /-- Whether to extract spacings. -/
  spacing : Bool := true
  /-- Whether to extract shadows. -/
  effects : Bool := true
  deriving DecidableEq, Repr

namespace Layer

/-! ### What a layer offers -/

/-- The colors of the solid fills. -/
def colorTokens (l : Layer) : List ColorToken :=
  l.fills.filterMap fun paint => paint.solidColor?.map fun color =>
    { name := Token.colorName l.name color.hex
      hex := color.hex
      rgb := color.rgb8
      opacity := paint.effectiveOpacity }

/-- The line height of a text style without one, in font sizes. -/
def lineHeightRatio : Binary64 := 1.2

/-- The weight of a text style without one. -/
def regularWeight : UInt16 := 400

/-- A font weight as an integer, taken into range. -/
def wholeWeight (weight : Binary64) : UInt16 := .ofNat (weight.roundToWhole.toNatUpTo 65535)

/-- The style of a text layer that has a font family and a font size. -/
def typographyToken? (l : Layer) : Option TypographyToken := do
  guard (l.kind = .text)
  let style ← l.style
  let family ← style.fontFamily
  let size ← style.fontSize
  let weight := (style.fontWeight.map wholeWeight).getD regularWeight
  return {
    name := Token.typographyName size weight
    fontFamily := family
    fontSize := size
    fontWeight := weight
    lineHeight := style.lineHeight.getD (size * lineHeightRatio)
    letterSpacing := style.letterSpacing }

/-- The paddings and the item spacing that are greater than zero. -/
def spacings (l : Layer) : List Binary64 :=
  let given := [l.paddingTop, l.paddingRight, l.paddingBottom, l.paddingLeft, l.itemSpacing]
  (given.filterMap fun value => value).filter fun value => 0 < value

/-- The first shadow. -/
def shadowToken? (l : Layer) : Option ShadowToken :=
  (l.effects.find? Effect.isShadow).map fun shadow =>
    let inset := shadow.kind == .innerShadow
    let offset := shadow.offset.getD default
    let color := shadow.color.getD default
    { name := Token.shadowName l.name inset
      inset := inset
      x := offset.x
      y := offset.y
      blur := shadow.radius.getD 0
      spread := shadow.spread.getD 0
      color := color.hex
      opacity := color.a }

end Layer

/-! ### Keys -/

/-- Text styles with the same font, size and weight are one token. -/
def TypographyToken.key (t : TypographyToken) : String × Binary64 × UInt16 :=
  (t.fontFamily, t.fontSize.unsignedZero, t.fontWeight)

/-- Shadows with the same blur and displacement are one token. -/
def ShadowToken.key (t : ShadowToken) : Binary64 × Binary64 × Binary64 :=
  (t.blur.unsignedZero, t.x.unsignedZero, t.y.unsignedZero)

/-- The items whose key no earlier item has, in order. -/
def distinctBy {α κ : Type} [DecidableEq κ] (key : α → κ) : List α → List α
  | [] => []
  | a :: more => a :: (distinctBy key more).filter fun b => key b ≠ key a

/-! ### Extraction -/

namespace TokenSet

/-- The colors of the layers, one for each hex form. -/
def colorsOf (layers : List Layer) : List ColorToken :=
  distinctBy (·.hex) (layers.flatMap Layer.colorTokens)

/-- The text styles of the layers. -/
def typographyOf (layers : List Layer) : List TypographyToken :=
  distinctBy TypographyToken.key (layers.filterMap Layer.typographyToken?)

/-- The spacings of the layers, ascending. -/
def spacingOf (layers : List Layer) : List SpacingToken :=
  let values := (distinctBy Binary64.unsignedZero (layers.flatMap Layer.spacings)).mergeSort
    fun x y => x ≤ y
  values.map fun value => ⟨Token.spacingName value, value⟩

/-- The shadows of the layers. -/
def effectsOf (layers : List Layer) : List ShadowToken :=
  distinctBy ShadowToken.key (layers.filterMap Layer.shadowToken?)

/-- The tokens of a forest, of the kinds asked for. -/
def extract (roots : Forest Layer) (kinds : TokenKinds) : TokenSet :=
  let layers := roots.values
  { colors := if kinds.colors then colorsOf layers else []
    typography := if kinds.typography then typographyOf layers else []
    spacing := if kinds.spacing then spacingOf layers else []
    effects := if kinds.effects then effectsOf layers else [] }

end TokenSet

end Handoff
