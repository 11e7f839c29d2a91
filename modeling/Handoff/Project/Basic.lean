import Handoff.Component.Widget
import Handoff.Token.Basic

/-!
# Projects

The files generated for a design, and the pictures that have to be fetched for
them.
-/

namespace Handoff

/-- What a generated file is for. -/
inductive FileKind where
  /-- The theme and the tokens. -/
  | theme
  /-- A component. -/
  | component
  /-- A screen. -/
  | screen
  /-- The list of pictures. -/
  | asset
  deriving DecidableEq, Repr

namespace FileKind

/-- Every kind. -/
def all : List FileKind := [.theme, .component, .screen, .asset]

/-- The name of the kind. -/
def name : FileKind → String
  | theme => "theme"
  | component => "component"
  | screen => "screen"
  | asset => "asset"

end FileKind

/-- A generated file. -/
structure SourceFile where
  /-- Where it belongs, below the directory of the project. -/
  path : String
  /-- What it contains. -/
  content : String
  /-- What it is for. -/
  kind : FileKind
  deriving DecidableEq, Repr

/-- A picture to be fetched. -/
structure AssetRequest where
  /-- The id of the node that shows it. -/
  nodeId : String
  /-- The picture. -/
  imageRef : String
  /-- The scale to fetch it at. -/
  scale : UInt8
  deriving DecidableEq, Repr

/-- How source is generated. -/
structure GenerationOptions where
  /-- Whether files have the ending for sources with types. -/
  typescript : Bool := true
  /-- Whether to generate screens and not components. -/
  screens : Bool := false
  /-- The directory of components. -/
  componentsDir : String := "components"
  /-- The directory of screens. -/
  screensDir : String := "app"
  /-- The scale of pictures. -/
  assetScale : UInt8 := 2
  /-- Whether to write the tokens as a file of their own. -/
  tokenFile : Bool := true
  deriving DecidableEq, Repr

/-- The result of a generation. -/
structure Project where
  /-- The files, in order. -/
  files : List SourceFile := []
  /-- The pictures, in order. -/
  assets : List AssetRequest := []
  deriving DecidableEq, Repr

/-- Why nothing is generated. -/
inductive GenerationError where
  /-- There are neither components nor tokens. -/
  | emptyProject
  /-- A text has widgets inside. -/
  | textWithChildren (id : String)
  deriving DecidableEq, Repr

end Handoff
