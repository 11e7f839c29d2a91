import Handoff.Json.Printer
import Handoff.Json.Record
import Handoff.Project.Basic

/-!
# Projects in JSON

How files, requests and options are read and written.
-/

namespace Handoff

open Json

namespace SourceFile

/-- The fields of a file. -/
def fieldNames : List String := ["path", "content", "kind"]

/-- Reads a file. -/
def ofJson? (v : Json) : Option SourceFile := do
  let fields ← record? fieldNames v
  return {
    path := ← fields.required "path" string?
    content := ← fields.required "content" string?
    kind := ← fields.required "kind" (oneOf? FileKind.all FileKind.name) }

/-- Writes a file. -/
def toJson (f : SourceFile) : Json :=
  .object [("path", .string f.path), ("content", .string f.content), ("kind", .string f.kind.name)]

end SourceFile

namespace AssetRequest

/-- Writes a request. -/
def toJson (r : AssetRequest) : Json :=
  .object [("nodeId", .string r.nodeId), ("imageRef", .string r.imageRef),
    ("scale", .integer r.scale.toNat)]

/-- The text of the list of pictures. -/
def manifest (requests : List AssetRequest) : String :=
  (Json.array (requests.map toJson)).pretty

end AssetRequest

namespace GenerationOptions

/-- The fields of the options of generation. -/
def fieldNames : List String :=
  ["typescript", "screens", "components_dir", "screens_dir", "asset_scale", "token_json"]

/-- Reads the options of generation; what is not mentioned keeps its default. -/
def ofFields? (fields : Fields) : Option GenerationOptions := do
  return {
    typescript := ← fields.orDefault "typescript" bool? true
    screens := ← fields.orDefault "screens" bool? false
    componentsDir := ← fields.orDefault "components_dir" string? "components"
    screensDir := ← fields.orDefault "screens_dir" string? "app"
    assetScale := ← fields.orDefault "asset_scale" uint8? 2
    tokenFile := ← fields.orDefault "token_json" bool? true }

/-- Reads the options of generation from JSON. -/
def ofJson? (v : Json) : Option GenerationOptions := (record? fieldNames v).bind ofFields?

/-- Writes the options of generation. -/
def toJson (o : GenerationOptions) : Json :=
  .object [("typescript", .bool o.typescript), ("screens", .bool o.screens),
    ("components_dir", .string o.componentsDir), ("screens_dir", .string o.screensDir),
    ("asset_scale", .integer o.assetScale.toNat), ("token_json", .bool o.tokenFile)]

end GenerationOptions

end Handoff
