import Handoff.Scene.Color

/-!
# Paints

What fills the area or the outline of a layer: a color, a gradient, or an image.
-/

namespace Handoff

/-- The kind of a paint. -/
inductive PaintKind where
  /-- One color all over. -/
  | solid
  /-- A gradient along a line. -/
  | gradientLinear
  /-- A gradient from a center outwards. -/
  | gradientRadial
  /-- A gradient around a center. -/
  | gradientAngular
  /-- A gradient in the shape of a diamond. -/
  | gradientDiamond
  /-- A picture. -/
  | image
  /-- An emoji. -/
  | emoji
  /-- A video. -/
  | video
  /-- A kind this library knows nothing of. -/
  | unknown
  deriving DecidableEq, Repr

namespace PaintKind

/-- Every kind. -/
def all : List PaintKind :=
  [.solid, .gradientLinear, .gradientRadial, .gradientAngular, .gradientDiamond, .image, .emoji,
    .video, .unknown]

/-- The name of the kind in an export. -/
def name : PaintKind → String
  | solid => "SOLID"
  | gradientLinear => "GRADIENT_LINEAR"
  | gradientRadial => "GRADIENT_RADIAL"
  | gradientAngular => "GRADIENT_ANGULAR"
  | gradientDiamond => "GRADIENT_DIAMOND"
  | image => "IMAGE"
  | emoji => "EMOJI"
  | video => "VIDEO"
  | unknown => "UNKNOWN"

end PaintKind

/-- A fill or a stroke of a layer. -/
structure Paint where
  /-- The kind. -/
  kind : PaintKind
  /-- Whether it is shown, where that is given. -/
  visible : Option Bool := none
  /-- Its own opacity. -/
  opacity : Option Binary64 := none
  /-- The color of a solid paint. -/
  color : Option Color := none
  /-- The picture of an image paint. -/
  imageRef : Option String := none
  deriving DecidableEq

namespace Paint

/-- A paint of one color. -/
def solid (color : Color) : Paint where
  kind := .solid
  color := some color

/-- A paint that shows a picture. -/
def image (imageRef : String) : Paint where
  kind := .image
  imageRef := some imageRef

/-- A paint is shown unless it says otherwise. -/
def isVisible (p : Paint) : Bool := p.visible != some false

/-- The color of a solid paint. -/
def solidColor? (p : Paint) : Option Color :=
  match p.kind with
  | .solid => p.color
  | _ => none

/-- The opacity of the color times that of the paint, each one where it is missing. -/
def effectiveOpacity (p : Paint) : Binary64 := (p.color.map (·.a)).getD 1 * p.opacity.getD 1

end Paint

end Handoff
