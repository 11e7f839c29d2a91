import Handoff.Binary64.Basic
import Handoff.Text.Basic

/-!
# Colors

A color of the design tool has channels from zero to one. It is written as a hex
color: a number sign and the six uppercase digits of its three octets. The
opacity is never part of the hex form.
-/

namespace Handoff

/-- A color with channels from zero to one and its opacity. -/
structure Color where
  /-- Red. -/
  r : Binary64
  /-- Green. -/
  g : Binary64
  /-- Blue. -/
  b : Binary64
  /-- Opacity. -/
  a : Binary64 := 1
  deriving DecidableEq

/-- A color as three octets. -/
structure Rgb8 where
  /-- Red. -/
  r : UInt8
  /-- Green. -/
  g : UInt8
  /-- Blue. -/
  b : UInt8
  deriving DecidableEq, Repr

namespace Rgb8

/-- The hex form, such as `#FF5733`. -/
def hex (c : Rgb8) : String :=
  .ofList ('#' :: Text.upperHexOctet c.r ++ Text.upperHexOctet c.g ++ Text.upperHexOctet c.b)

end Rgb8

namespace Color

/-- The opaque color with all channels at zero. -/
def black : Color := ⟨0, 0, 0, 1⟩

/-- The opaque color with all channels at one. -/
def white : Color := ⟨1, 1, 1, 1⟩

instance : Inhabited Color := ⟨black⟩

/-- The octet of a channel: clamped, scaled to 255 and rounded with a half going up. -/
def channel (x : Binary64) : UInt8 := .ofNat ((x.clamp 0 1 * 255).roundToWhole.toNatUpTo 255)

/-- The octets of the three channels. -/
def rgb8 (c : Color) : Rgb8 := ⟨channel c.r, channel c.g, channel c.b⟩

/-- The hex form, without the opacity. -/
def hex (c : Color) : String := c.rgb8.hex

end Color

end Handoff
