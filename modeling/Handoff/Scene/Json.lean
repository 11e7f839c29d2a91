import Handoff.Json.Nested
import Handoff.Scene.Layer

/-!
# Design exports in JSON

How layers and documents are read from an export and written back. Kinds of
layers, paints and effects that are not known are read as `unknown`; the other
vocabularies refuse what they do not hold.
-/

namespace Handoff

open Json

/-! ### Colors and shapes -/

namespace Color

/-- The fields of a color. -/
def fieldNames : List String := ["r", "g", "b", "a"]

/-- Reads a color; without an opacity it is opaque. -/
def ofJson? (v : Json) : Option Color := do
  let fields ← record? fieldNames v
  return {
    r := ← fields.required "r" number?
    g := ← fields.required "g" number?
    b := ← fields.required "b" number?
    a := ← fields.orDefault "a" number? 1 }

/-- Writes a color. -/
def toJson (c : Color) : Json :=
  .object [("r", ofBinary64 c.r), ("g", ofBinary64 c.g), ("b", ofBinary64 c.b),
    ("a", ofBinary64 c.a)]

end Color

namespace Rgb8

/-- The fields of a color in octets. -/
def fieldNames : List String := ["r", "g", "b"]

/-- Reads a color in octets. -/
def ofJson? (v : Json) : Option Rgb8 := do
  let fields ← record? fieldNames v
  return {
    r := ← fields.required "r" uint8?
    g := ← fields.required "g" uint8?
    b := ← fields.required "b" uint8? }

/-- Writes a color in octets. -/
def toJson (c : Rgb8) : Json :=
  .object [("r", .integer c.r.toNat), ("g", .integer c.g.toNat), ("b", .integer c.b.toNat)]

end Rgb8

namespace Bounds

/-- The fields of bounds. -/
def fieldNames : List String := ["x", "y", "width", "height"]

/-- Reads bounds. -/
def ofJson? (v : Json) : Option Bounds := do
  let fields ← record? fieldNames v
  return {
    x := ← fields.required "x" number?
    y := ← fields.required "y" number?
    width := ← fields.required "width" number?
    height := ← fields.required "height" number? }

/-- Writes bounds. -/
def toJson (b : Bounds) : Json :=
  .object [("x", ofBinary64 b.x), ("y", ofBinary64 b.y), ("width", ofBinary64 b.width),
    ("height", ofBinary64 b.height)]

end Bounds

namespace Offset

/-- The fields of an offset. -/
def fieldNames : List String := ["x", "y"]

/-- Reads an offset. -/
def ofJson? (v : Json) : Option Offset := do
  let fields ← record? fieldNames v
  return { x := ← fields.required "x" number?, y := ← fields.required "y" number? }

/-- Writes an offset. -/
def toJson (o : Offset) : Json := .object [("x", ofBinary64 o.x), ("y", ofBinary64 o.y)]

end Offset

/-! ### Paints and effects -/

namespace PaintKind

/-- Reads a kind of paint. -/
def ofJson? : Json → Option PaintKind := oneOfOr .unknown all name

end PaintKind

namespace Paint

/-- The fields of a paint. -/
def fieldNames : List String := ["type", "visible", "opacity", "color", "imageRef"]

/-- Reads a paint. -/
def ofJson? (v : Json) : Option Paint := do
  let fields ← record? fieldNames v
  return {
    kind := ← fields.required "type" PaintKind.ofJson?
    visible := ← fields.optional "visible" bool?
    opacity := ← fields.optional "opacity" number?
    color := ← fields.optional "color" Color.ofJson?
    imageRef := ← fields.optional "imageRef" string? }

/-- Writes a paint. -/
def toJson (p : Paint) : Json :=
  .object ([("type", .string p.kind.name)]
    ++ ifSome "visible" .bool p.visible
    ++ ifSome "opacity" ofBinary64 p.opacity
    ++ ifSome "color" Color.toJson p.color
    ++ ifSome "imageRef" .string p.imageRef)

end Paint

namespace EffectKind

/-- Reads a kind of effect. -/
def ofJson? : Json → Option EffectKind := oneOfOr .unknown all name

end EffectKind

namespace Effect

/-- The fields of an effect. -/
def fieldNames : List String := ["type", "visible", "radius", "spread", "color", "offset"]

/-- Reads an effect. -/
def ofJson? (v : Json) : Option Effect := do
  let fields ← record? fieldNames v
  return {
    kind := ← fields.required "type" EffectKind.ofJson?
    visible := ← fields.optional "visible" bool?
    radius := ← fields.optional "radius" number?
    spread := ← fields.optional "spread" number?
    color := ← fields.optional "color" Color.ofJson?
    offset := ← fields.optional "offset" Offset.ofJson? }

/-- Writes an effect. -/
def toJson (e : Effect) : Json :=
  .object ([("type", .string e.kind.name)]
    ++ ifSome "visible" .bool e.visible
    ++ ifSome "radius" ofBinary64 e.radius
    ++ ifSome "spread" ofBinary64 e.spread
    ++ ifSome "color" Color.toJson e.color
    ++ ifSome "offset" Offset.toJson e.offset)

end Effect

/-! ### Layers -/

namespace TextStyle

/-- The fields of a text style. -/
def fieldNames : List String :=
  ["fontFamily", "fontSize", "fontWeight", "lineHeightPx", "letterSpacing", "textAlignHorizontal"]

/-- Reads a text style. -/
def ofJson? (v : Json) : Option TextStyle := do
  let fields ← record? fieldNames v
  return {
    fontFamily := ← fields.optional "fontFamily" string?
    fontSize := ← fields.optional "fontSize" number?
    fontWeight := ← fields.optional "fontWeight" number?
    lineHeight := ← fields.optional "lineHeightPx" number?
    letterSpacing := ← fields.optional "letterSpacing" number?
    alignment := ← fields.optional "textAlignHorizontal"
      (oneOf? LineAlignment.all LineAlignment.name) }

/-- Writes a text style. -/
def toJson (s : TextStyle) : Json :=
  .object (ifSome "fontFamily" .string s.fontFamily
    ++ ifSome "fontSize" ofBinary64 s.fontSize
    ++ ifSome "fontWeight" ofBinary64 s.fontWeight
    ++ ifSome "lineHeightPx" ofBinary64 s.lineHeight
    ++ ifSome "letterSpacing" ofBinary64 s.letterSpacing
    ++ ifSome "textAlignHorizontal" (fun a => .string a.name) s.alignment)

end TextStyle

namespace LayerKind

/-- Reads a kind of layer. -/
def ofJson? : Json → Option LayerKind := oneOfOr .unknown all name

end LayerKind

namespace Layer

/-- The fields of a layer. -/
def fieldNames : List String :=
  ["id", "name", "type", "visible", "absoluteBoundingBox", "fills", "strokes", "strokeWeight",
    "effects", "cornerRadius", "layoutMode", "primaryAxisAlignItems", "counterAxisAlignItems",
    "itemSpacing", "paddingTop", "paddingRight", "paddingBottom", "paddingLeft",
    "layoutSizingHorizontal", "layoutSizingVertical", "characters", "style"]

/-- Reads a layer. -/
def ofFields? (fields : Fields) : Option Layer := do
  return {
    id := ← fields.required "id" string?
    name := ← fields.orDefault "name" string? ""
    kind := ← fields.required "type" LayerKind.ofJson?
    visible := ← fields.optional "visible" bool?
    bounds := ← fields.optional "absoluteBoundingBox" Bounds.ofJson?
    fills := ← fields.orDefault "fills" (list? Paint.ofJson?) []
    strokes := ← fields.orDefault "strokes" (list? Paint.ofJson?) []
    strokeWeight := ← fields.optional "strokeWeight" number?
    effects := ← fields.orDefault "effects" (list? Effect.ofJson?) []
    cornerRadius := ← fields.optional "cornerRadius" number?
    layoutMode := ← fields.optional "layoutMode" (oneOf? LayoutMode.all LayoutMode.name)
    primaryAlignment := ← fields.optional "primaryAxisAlignItems"
      (oneOf? PrimaryAlignment.all PrimaryAlignment.name)
    counterAlignment := ← fields.optional "counterAxisAlignItems"
      (oneOf? CounterAlignment.all CounterAlignment.name)
    itemSpacing := ← fields.optional "itemSpacing" number?
    paddingTop := ← fields.optional "paddingTop" number?
    paddingRight := ← fields.optional "paddingRight" number?
    paddingBottom := ← fields.optional "paddingBottom" number?
    paddingLeft := ← fields.optional "paddingLeft" number?
    horizontalSizing := ← fields.optional "layoutSizingHorizontal" (oneOf? Sizing.all Sizing.name)
    verticalSizing := ← fields.optional "layoutSizingVertical" (oneOf? Sizing.all Sizing.name)
    characters := ← fields.optional "characters" string?
    style := ← fields.optional "style" TextStyle.ofJson? }

/-- Writes a layer, leaving out what it does not have. -/
def toFields (l : Layer) : Fields :=
  [("id", .string l.id), ("name", .string l.name), ("type", .string l.kind.name)]
    ++ ifSome "visible" .bool l.visible
    ++ ifSome "absoluteBoundingBox" Bounds.toJson l.bounds
    ++ ifAny "fills" Paint.toJson l.fills
    ++ ifAny "strokes" Paint.toJson l.strokes
    ++ ifSome "strokeWeight" ofBinary64 l.strokeWeight
    ++ ifAny "effects" Effect.toJson l.effects
    ++ ifSome "cornerRadius" ofBinary64 l.cornerRadius
    ++ ifSome "layoutMode" (fun a => .string a.name) l.layoutMode
    ++ ifSome "primaryAxisAlignItems" (fun a => .string a.name) l.primaryAlignment
    ++ ifSome "counterAxisAlignItems" (fun a => .string a.name) l.counterAlignment
    ++ ifSome "itemSpacing" ofBinary64 l.itemSpacing
    ++ ifSome "paddingTop" ofBinary64 l.paddingTop
    ++ ifSome "paddingRight" ofBinary64 l.paddingRight
    ++ ifSome "paddingBottom" ofBinary64 l.paddingBottom
    ++ ifSome "paddingLeft" ofBinary64 l.paddingLeft
    ++ ifSome "layoutSizingHorizontal" (fun a => .string a.name) l.horizontalSizing
    ++ ifSome "layoutSizingVertical" (fun a => .string a.name) l.verticalSizing
    ++ ifSome "characters" .string l.characters
    ++ ifSome "style" TextStyle.toJson l.style

end Layer

namespace Node

/-- Reads a layer with the layers inside it. -/
def ofJson? (v : Json) : Option Node := Tree.ofJson? Layer.fieldNames Layer.ofFields? v

/-- Writes a layer with the layers inside it. -/
def toJson (n : Node) : Json := Tree.toJson Layer.toFields n

end Node

/-! ### Documents -/

namespace Document

/-- The fields of a document. -/
def fieldNames : List String := ["name", "version", "lastModified", "document"]

/-- Reads a document. -/
def ofJson? (v : Json) : Option Document := do
  let fields ← record? fieldNames v
  return {
    name := ← fields.orDefault "name" string? ""
    version := ← fields.optional "version" string?
    lastModified := ← fields.optional "lastModified" string?
    root := ← fields.required "document" Node.ofJson? }

/-- Writes a document; what is not known about the file is `null`. -/
def toJson (d : Document) : Json :=
  .object [("name", .string d.name), ("version", (d.version.map Json.string).getD .null),
    ("lastModified", (d.lastModified.map Json.string).getD .null),
    ("document", Node.toJson d.root)]

end Document

end Handoff
