import Handoff.Component.Json
import Handoff.Project.Json
import Handoff.Toml.Reader
import Handoff.Token.Json

/-!
# Settings

The settings of an import: what to extract, how to convert, how to generate, and
where to write. They are read from a TOML document or from JSON; what is not
mentioned keeps its default. A table may be given as the list of its values,
of which TOML documents may have too many.
-/

namespace Handoff

open Json

/-- The settings of an import. -/
structure Settings where
  /-- The tokens to extract. -/
  extract : TokenKinds := {}
  /-- How to convert. -/
  convert : ConversionOptions := {}
  /-- How to generate. -/
  generate : GenerationOptions := {}
  /-- The directory to write to. -/
  outputDir : String := "generated"
  deriving DecidableEq, Repr

namespace Settings

/-- The file that settings are read from if no other is named. -/
def defaultPath : String := "graft.toml"

/-- The fields of settings. -/
def fieldNames : List String := ["extract", "convert", "codegen", "output_dir"]

/-- Reads settings, given how records are told from their JSON form. -/
def read? (record : List String → Json → Option Fields) (v : Json) : Option Settings := do
  let part {α : Type} (names : List String) (read : Fields → Option α) (v : Json) : Option α :=
    (record names v).bind read
  let fields ← record fieldNames v
  return {
    extract := ← fields.orDefault "extract" (part TokenKinds.fieldNames TokenKinds.ofFields?) {}
    convert := ← fields.orDefault "convert"
      (part ConversionOptions.fieldNames ConversionOptions.ofFields?) {}
    generate := ← fields.orDefault "codegen"
      (part GenerationOptions.fieldNames GenerationOptions.ofFields?) {}
    outputDir := ← fields.orDefault "output_dir" string? "generated" }

/-- Reads settings from JSON. -/
def ofJson? (v : Json) : Option Settings := read? record? v

/-- The fields of a record, where a list of values may have more than the record has fields. -/
def leadingRecord? (names : List String) : Json → Option Fields
  | .array items => some (names.zip items)
  | v => record? names v

/-- Reads settings from the text of a TOML document. -/
def ofToml? (text : String) : Option Settings :=
  (Toml.read? text).bind fun document =>
    read? leadingRecord? (.object (Toml.entriesToJson document.entries))

/-- Writes settings. -/
def toJson (s : Settings) : Json :=
  .object [("extract", s.extract.toJson), ("convert", s.convert.toJson),
    ("codegen", s.generate.toJson), ("output_dir", .string s.outputDir)]

end Settings

end Handoff
