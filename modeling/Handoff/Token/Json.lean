import Handoff.Json.Printer
import Handoff.Scene.Json
import Handoff.Token.Extract

/-!
# Token sets in JSON

How token sets are written and read, and which kinds to extract.
-/

namespace Handoff

open Json

namespace ColorToken

/-- The fields of a color token. -/
def fieldNames : List String := ["name", "hex", "rgb", "opacity"]

/-- Reads a color token. -/
def ofJson? (v : Json) : Option ColorToken := do
  let fields ← record? fieldNames v
  return {
    name := ← fields.required "name" string?
    hex := ← fields.required "hex" string?
    rgb := ← fields.required "rgb" Rgb8.ofJson?
    opacity := ← fields.required "opacity" number? }

/-- Writes a color token. -/
def toJson (t : ColorToken) : Json :=
  .object [("name", .string t.name), ("hex", .string t.hex), ("rgb", Rgb8.toJson t.rgb),
    ("opacity", ofBinary64 t.opacity)]

end ColorToken

namespace TypographyToken

/-- The fields of a typography token. -/
def fieldNames : List String :=
  ["name", "fontFamily", "fontSize", "fontWeight", "lineHeight", "letterSpacing"]

/-- Reads a typography token. -/
def ofJson? (v : Json) : Option TypographyToken := do
  let fields ← record? fieldNames v
  return {
    name := ← fields.required "name" string?
    fontFamily := ← fields.required "fontFamily" string?
    fontSize := ← fields.required "fontSize" number?
    fontWeight := ← fields.required "fontWeight" uint16?
    lineHeight := ← fields.required "lineHeight" number?
    letterSpacing := ← fields.optional "letterSpacing" number? }

/-- Writes a typography token. -/
def toJson (t : TypographyToken) : Json :=
  .object ([("name", .string t.name), ("fontFamily", .string t.fontFamily),
    ("fontSize", ofBinary64 t.fontSize), ("fontWeight", .integer t.fontWeight.toNat),
    ("lineHeight", ofBinary64 t.lineHeight)]
    ++ ifSome "letterSpacing" ofBinary64 t.letterSpacing)

end TypographyToken

namespace SpacingToken

/-- The fields of a spacing token. -/
def fieldNames : List String := ["name", "value"]

/-- Reads a spacing token. -/
def ofJson? (v : Json) : Option SpacingToken := do
  let fields ← record? fieldNames v
  return {
    name := ← fields.required "name" string?
    value := ← fields.required "value" number? }

/-- Writes a spacing token. -/
def toJson (t : SpacingToken) : Json :=
  .object [("name", .string t.name), ("value", ofBinary64 t.value)]

end SpacingToken

namespace ShadowToken

/-- The fields of a shadow token. -/
def fieldNames : List String :=
  ["name", "kind", "inset", "x", "y", "blur", "spread", "color", "opacity"]

/-- The only kind of effect that is a token. -/
def kind? : Json → Option Unit := oneOf? [()] fun _ => "shadow"

/-- Reads a shadow token. -/
def ofJson? (v : Json) : Option ShadowToken := do
  let fields ← record? fieldNames v
  let _ ← fields.required "kind" kind?
  return {
    name := ← fields.required "name" string?
    inset := ← fields.orDefault "inset" bool? false
    x := ← fields.required "x" number?
    y := ← fields.required "y" number?
    blur := ← fields.required "blur" number?
    spread := ← fields.required "spread" number?
    color := ← fields.required "color" string?
    opacity := ← fields.required "opacity" number? }

/-- Writes a shadow token. -/
def toJson (t : ShadowToken) : Json :=
  .object [("name", .string t.name), ("kind", .string "shadow"), ("inset", .bool t.inset),
    ("x", ofBinary64 t.x), ("y", ofBinary64 t.y), ("blur", ofBinary64 t.blur),
    ("spread", ofBinary64 t.spread), ("color", .string t.color),
    ("opacity", ofBinary64 t.opacity)]

end ShadowToken

namespace Provenance

/-- The fields of a provenance. -/
def fieldNames : List String := ["extractedAt", "sourceDocumentId", "sourcePageIds", "version"]

/-- Reads a provenance. -/
def ofJson? (v : Json) : Option Provenance := do
  let fields ← record? fieldNames v
  return {
    extractedAt := ← fields.required "extractedAt" string?
    documentId := ← fields.required "sourceDocumentId" string?
    pageIds := ← fields.required "sourcePageIds" (list? string?)
    version := ← fields.required "version" string? }

/-- Writes a provenance. -/
def toJson (p : Provenance) : Json :=
  .object [("extractedAt", .string p.extractedAt), ("sourceDocumentId", .string p.documentId),
    ("sourcePageIds", .array (p.pageIds.map .string)), ("version", .string p.version)]

end Provenance

namespace TokenSet

/-- The fields of a token set. -/
def fieldNames : List String := ["colors", "typography", "spacing", "effects", "metadata"]

/-- Reads a token set. -/
def ofJson? (v : Json) : Option TokenSet := do
  let fields ← record? fieldNames v
  return {
    colors := ← fields.required "colors" (list? ColorToken.ofJson?)
    typography := ← fields.required "typography" (list? TypographyToken.ofJson?)
    spacing := ← fields.required "spacing" (list? SpacingToken.ofJson?)
    effects := ← fields.required "effects" (list? ShadowToken.ofJson?)
    provenance := ← fields.optional "metadata" Provenance.ofJson? }

/-- Writes a token set. -/
def toJson (t : TokenSet) : Json :=
  .object ([("colors", .array (t.colors.map ColorToken.toJson)),
    ("typography", .array (t.typography.map TypographyToken.toJson)),
    ("spacing", .array (t.spacing.map SpacingToken.toJson)),
    ("effects", .array (t.effects.map ShadowToken.toJson))]
    ++ ifSome "metadata" Provenance.toJson t.provenance)

/-- The text of a token file. -/
def text (t : TokenSet) : String := t.toJson.pretty

end TokenSet

namespace TokenKinds

/-- The fields of the kinds to extract. -/
def fieldNames : List String := ["colors", "typography", "spacing", "effects"]

/-- Reads the kinds to extract; one that is not mentioned is extracted. -/
def ofFields? (fields : Fields) : Option TokenKinds := do
  return {
    colors := ← fields.orDefault "colors" bool? true
    typography := ← fields.orDefault "typography" bool? true
    spacing := ← fields.orDefault "spacing" bool? true
    effects := ← fields.orDefault "effects" bool? true }

/-- Reads the kinds to extract from JSON. -/
def ofJson? (v : Json) : Option TokenKinds := (record? fieldNames v).bind ofFields?

/-- Writes the kinds to extract. -/
def toJson (k : TokenKinds) : Json :=
  .object [("colors", .bool k.colors), ("typography", .bool k.typography),
    ("spacing", .bool k.spacing), ("effects", .bool k.effects)]

end TokenKinds

end Handoff
