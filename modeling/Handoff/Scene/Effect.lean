import Handoff.Scene.Color

/-!
# Effects

Shadows and blurs of a layer.
-/

namespace Handoff

/-- A displacement in pixels. -/
structure Offset where
  /-- To the right. -/
  x : Binary64
  /-- Downwards. -/
  y : Binary64
  deriving DecidableEq

instance : Inhabited Offset := ⟨⟨0, 0⟩⟩

/-- The kind of an effect. -/
inductive EffectKind where
  /-- A shadow behind the layer. -/
  | dropShadow
  /-- A shadow inside the layer. -/
  | innerShadow
  /-- The layer blurred. -/
  | layerBlur
  /-- What lies behind the layer blurred. -/
  | backgroundBlur
  /-- A kind this library knows nothing of. -/
  | unknown
  deriving DecidableEq, Repr

namespace EffectKind

/-- Every kind. -/
def all : List EffectKind := [.dropShadow, .innerShadow, .layerBlur, .backgroundBlur, .unknown]

/-- The name of the kind in an export. -/
def name : EffectKind → String
  | dropShadow => "DROP_SHADOW"
  | innerShadow => "INNER_SHADOW"
  | layerBlur => "LAYER_BLUR"
  | backgroundBlur => "BACKGROUND_BLUR"
  | unknown => "UNKNOWN"

end EffectKind

/-- A visual effect of a layer. -/
structure Effect where
  /-- The kind. -/
  kind : EffectKind
  /-- Whether it is shown, where that is given. -/
  visible : Option Bool := none
  /-- How far it is blurred. -/
  radius : Option Binary64 := none
  /-- How far a shadow reaches beyond the layer. -/
  spread : Option Binary64 := none
  /-- The color of a shadow. -/
  color : Option Color := none
  /-- Where a shadow lies. -/
  offset : Option Offset := none
  deriving DecidableEq

namespace Effect

/-- A shadow behind the layer. -/
def dropShadow (offset : Offset) (radius : Binary64) (color : Color) : Effect where
  kind := .dropShadow
  radius := some radius
  color := some color
  offset := some offset

/-- An effect is shown unless it says otherwise. -/
def isVisible (e : Effect) : Bool := e.visible != some false

/-- Whether the effect is a shadow, behind or inside. -/
def isShadow (e : Effect) : Bool := e.kind == .dropShadow || e.kind == .innerShadow

end Effect

end Handoff
