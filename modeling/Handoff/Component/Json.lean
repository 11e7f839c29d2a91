import Handoff.Component.Classify
import Handoff.Json.Nested

/-!
# Components in JSON

How components are read and written, and the options of conversion.
-/

namespace Handoff

open Json

namespace WidgetKind

/-- Reads the kind of a widget. -/
def ofJson? : Json → Option WidgetKind := oneOf? all name

end WidgetKind

namespace FlexLayout

/-- The fields of a layout. -/
def fieldNames : List String := ["flexDirection", "justifyContent", "alignItems", "gap"]

/-- Reads a layout. -/
def ofJson? (v : Json) : Option FlexLayout := do
  let fields ← record? fieldNames v
  return {
    direction := ← fields.required "flexDirection" (oneOf? FlexDirection.all FlexDirection.name)
    justification := ← fields.required "justifyContent"
      (oneOf? Justification.all Justification.name)
    alignment := ← fields.required "alignItems" (oneOf? ItemAlignment.all ItemAlignment.name)
    gap := ← fields.optional "gap" number? }

/-- Writes a layout. -/
def toJson (l : FlexLayout) : Json :=
  .object ([("flexDirection", .string l.direction.name),
    ("justifyContent", .string l.justification.name), ("alignItems", .string l.alignment.name)]
    ++ ifSome "gap" ofBinary64 l.gap)

end FlexLayout

namespace Dimension

/-- Reads a dimension: `full`, or the pixels under the only name `px`. -/
def ofJson? : Json → Option Dimension
  | .object [("px", v)] => v.number?.map .px
  | v => if v.constant? = some "full" then some .full else none

/-- Writes a dimension. -/
def toJson : Dimension → Json
  | px size => .object [("px", ofBinary64 size)]
  | full => .string "full"

end Dimension

namespace Size

/-- The fields of a size. -/
def fieldNames : List String := ["width", "height"]

/-- Reads a size. -/
def ofJson? (v : Json) : Option Size := do
  let fields ← record? fieldNames v
  return {
    width := ← fields.required "width" Dimension.ofJson?
    height := ← fields.required "height" Dimension.ofJson? }

/-- Writes a size. -/
def toJson (s : Size) : Json := .object [("width", s.width.toJson), ("height", s.height.toJson)]

end Size

namespace Border

/-- The fields of a border. -/
def fieldNames : List String := ["width", "radius", "color"]

/-- Reads a border. -/
def ofJson? (v : Json) : Option Border := do
  let fields ← record? fieldNames v
  return {
    width := ← fields.optional "width" number?
    radius := ← fields.optional "radius" number?
    color := ← fields.optional "color" string? }

/-- Writes a border. -/
def toJson (b : Border) : Json :=
  .object (ifSome "width" ofBinary64 b.width ++ ifSome "radius" ofBinary64 b.radius
    ++ ifSome "color" .string b.color)

end Border

namespace Padding

/-- The fields of a padding. -/
def fieldNames : List String := ["top", "right", "bottom", "left"]

/-- Reads a padding. -/
def ofJson? (v : Json) : Option Padding := do
  let fields ← record? fieldNames v
  return {
    top := ← fields.required "top" number?
    right := ← fields.required "right" number?
    bottom := ← fields.required "bottom" number?
    left := ← fields.required "left" number? }

/-- Writes a padding. -/
def toJson (p : Padding) : Json :=
  .object [("top", ofBinary64 p.top), ("right", ofBinary64 p.right),
    ("bottom", ofBinary64 p.bottom), ("left", ofBinary64 p.left)]

end Padding

namespace Typography

/-- The fields of a typography. -/
def fieldNames : List String :=
  ["fontSize", "fontWeight", "fontFamily", "lineHeight", "letterSpacing", "textAlign", "color"]

/-- Reads a typography. -/
def ofJson? (v : Json) : Option Typography := do
  let fields ← record? fieldNames v
  return {
    fontSize := ← fields.optional "fontSize" number?
    fontWeight := ← fields.optional "fontWeight" string?
    fontFamily := ← fields.optional "fontFamily" string?
    lineHeight := ← fields.optional "lineHeight" number?
    letterSpacing := ← fields.optional "letterSpacing" number?
    alignment := ← fields.required "textAlign" (oneOf? TextAlignment.all TextAlignment.name)
    color := ← fields.optional "color" string? }

/-- Writes a typography. -/
def toJson (t : Typography) : Json :=
  .object (ifSome "fontSize" ofBinary64 t.fontSize
    ++ ifSome "fontWeight" .string t.fontWeight
    ++ ifSome "fontFamily" .string t.fontFamily
    ++ ifSome "lineHeight" ofBinary64 t.lineHeight
    ++ ifSome "letterSpacing" ofBinary64 t.letterSpacing
    ++ [("textAlign", .string t.alignment.name)]
    ++ ifSome "color" .string t.color)

end Typography

namespace Shadow

/-- The fields of a shadow. -/
def fieldNames : List String := ["color", "offsetX", "offsetY", "opacity", "radius"]

/-- Reads a shadow. -/
def ofJson? (v : Json) : Option Shadow := do
  let fields ← record? fieldNames v
  return {
    color := ← fields.required "color" string?
    offsetX := ← fields.required "offsetX" number?
    offsetY := ← fields.required "offsetY" number?
    opacity := ← fields.required "opacity" number?
    radius := ← fields.required "radius" number? }

/-- Writes a shadow. -/
def toJson (s : Shadow) : Json :=
  .object [("color", .string s.color), ("offsetX", ofBinary64 s.offsetX),
    ("offsetY", ofBinary64 s.offsetY), ("opacity", ofBinary64 s.opacity),
    ("radius", ofBinary64 s.radius)]

end Shadow

namespace Widget

/-- The fields of a widget. -/
def fieldNames : List String :=
  ["id", "name", "type", "omitted", "layout", "size", "backgroundColor", "border", "padding",
    "typography", "shadow", "text", "imageRef"]

/-- Reads a widget. -/
def ofFields? (fields : Fields) : Option Widget := do
  return {
    id := ← fields.required "id" string?
    name := ← fields.required "name" string?
    kind := ← fields.required "type" WidgetKind.ofJson?
    omitted := ← fields.orDefault "omitted" bool? false
    layout := ← fields.optional "layout" FlexLayout.ofJson?
    size := ← fields.optional "size" Size.ofJson?
    backgroundColor := ← fields.optional "backgroundColor" string?
    border := ← fields.optional "border" Border.ofJson?
    padding := ← fields.optional "padding" Padding.ofJson?
    typography := ← fields.optional "typography" Typography.ofJson?
    shadow := ← fields.optional "shadow" Shadow.ofJson?
    text := ← fields.optional "text" string?
    imageRef := ← fields.optional "imageRef" string? }

/-- Writes a widget, leaving out what it does not have. -/
def toFields (w : Widget) : Fields :=
  [("id", .string w.id), ("name", .string w.name), ("type", .string w.kind.name)]
    ++ (if w.omitted then [("omitted", .bool true)] else [])
    ++ ifSome "layout" FlexLayout.toJson w.layout
    ++ ifSome "size" Size.toJson w.size
    ++ ifSome "backgroundColor" .string w.backgroundColor
    ++ ifSome "border" Border.toJson w.border
    ++ ifSome "padding" Padding.toJson w.padding
    ++ ifSome "typography" Typography.toJson w.typography
    ++ ifSome "shadow" Shadow.toJson w.shadow
    ++ ifSome "text" .string w.text
    ++ ifSome "imageRef" .string w.imageRef

end Widget

namespace Component

/-- Reads a component. -/
def ofJson? (v : Json) : Option Component := Tree.ofJson? Widget.fieldNames Widget.ofFields? v

/-- Writes a component. -/
def toJson (c : Component) : Json := Tree.toJson Widget.toFields c

end Component

namespace ConversionOptions

/-- The fields of the options of conversion. -/
def fieldNames : List String :=
  ["include_hidden", "flatten_groups", "detect_buttons", "detect_lists"]

/-- Reads the options of conversion; what is not mentioned keeps its default. -/
def ofFields? (fields : Fields) : Option ConversionOptions := do
  return {
    includeHidden := ← fields.orDefault "include_hidden" bool? false
    flattenGroups := ← fields.orDefault "flatten_groups" bool? true
    detectButtons := ← fields.orDefault "detect_buttons" bool? true
    detectLists := ← fields.orDefault "detect_lists" bool? true }

/-- Reads the options of conversion from JSON. -/
def ofJson? (v : Json) : Option ConversionOptions := (record? fieldNames v).bind ofFields?

/-- Writes the options of conversion. -/
def toJson (o : ConversionOptions) : Json :=
  .object [("include_hidden", .bool o.includeHidden), ("flatten_groups", .bool o.flattenGroups),
    ("detect_buttons", .bool o.detectButtons), ("detect_lists", .bool o.detectLists)]

end ConversionOptions

end Handoff
