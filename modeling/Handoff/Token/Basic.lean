import Handoff.Scene.Color

/-!
# Design tokens

Named values that a design uses over and over: colors, text styles, spacings and
shadows. A token set may carry the document it came from.
-/

namespace Handoff

/-- A named color. -/
structure ColorToken where
  /-- The name. -/
  name : String
  /-- The hex form. -/
  hex : String
  /-- The octets. -/
  rgb : Rgb8
  /-- The opacity, which the hex form does not show. -/
  opacity : Binary64
  deriving DecidableEq

/-- A named text style. -/
structure TypographyToken where
  /-- The name. -/
  name : String
  /-- The font family. -/
  fontFamily : String
  /-- The font size in pixels. -/
  fontSize : Binary64
  /-- The weight of the font. -/
  fontWeight : UInt16
  /-- The line height in pixels. -/
  lineHeight : Binary64
  /-- The space between letters. -/
  letterSpacing : Option Binary64
  deriving DecidableEq

/-- A named spacing in pixels. -/
structure SpacingToken where
  /-- The name. -/
  name : String
  /-- The spacing. -/
  value : Binary64
  deriving DecidableEq

/-- A named shadow. -/
structure ShadowToken where
  /-- The name. -/
  name : String
  /-- Whether it lies inside. -/
  inset : Bool
  /-- Its displacement to the right. -/
  x : Binary64
  /-- Its displacement downwards. -/
  y : Binary64
  /-- How far it is blurred. -/
  blur : Binary64
  /-- How far it reaches beyond. -/
  spread : Binary64
  /-- The hex form of its color. -/
  color : String
  /-- Its opacity. -/
  opacity : Binary64
  deriving DecidableEq

/-- Where and when a token set was extracted. -/
structure Provenance where
  /-- The time, as text. -/
  extractedAt : String
  /-- The id of the document. -/
  documentId : String
  /-- The ids of the pages. -/
  pageIds : List String
  /-- The version of the token format. -/
  version : String
  deriving DecidableEq, Repr

/-- All tokens of a document. -/
structure TokenSet where
  /-- The colors. -/
  colors : List ColorToken := []
  /-- The text styles. -/
  typography : List TypographyToken := []
  /-- The spacings. -/
  spacing : List SpacingToken := []
  /-- The shadows. -/
  effects : List ShadowToken := []
  /-- Where they come from. -/
  provenance : Option Provenance := none
  deriving DecidableEq

namespace TokenSet

/-- The version of the token format. -/
def formatVersion : String := "1.0.0"

/-- The number of tokens of all kinds. -/
def size (t : TokenSet) : Nat :=
  t.colors.length + t.typography.length + t.spacing.length + t.effects.length

/-- The tokens with a note of the document they come from. -/
def stamped (t : TokenSet) (documentId : String) (pageIds : List String) (extractedAt : String) :
    TokenSet :=
  { t with provenance := some ⟨extractedAt, documentId, pageIds, formatVersion⟩ }

end TokenSet

end Handoff
