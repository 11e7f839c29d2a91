import Handoff.Token.Extract
import Handoff.Markup.Emit
import Handoff.Project.Json
import Handoff.Project.Name
import Handoff.Theme
import Handoff.Token.Json

/-!
# Generation of projects

A project has the theme and the token file first, then one file for each
component, and last the list of pictures if there are any. Components, and the
files of screens, have names that are unique in the project.
-/

namespace Handoff

namespace GenerationError

/-- What is told about the error. -/
def message : GenerationError → String
  | emptyProject => "Nothing to generate: no components and no design tokens"
  | textWithChildren id => TextWithChildren.message ⟨id⟩

end GenerationError

namespace Component

/-- The source of a file that holds a component under the name given. -/
def fileSource (options : GenerationOptions) (name : String) (c : Component) :
    Except TextWithChildren String :=
  (c.emit 4).map fun code =>
    let imports := [
      "import React from 'react';",
      "import \x7b " ++ ", ".intercalate (c.primitives.map Primitive.tag)
        ++ " \x7d from 'react-native';",
      ""]
    let opening := if options.screens then "export default function " else "export function "
    let body := [opening ++ name ++ "() \x7b", "  return (", code, "  );", "\x7d"]
    let exports := if options.screens then [] else ["", "export default " ++ name ++ ";"]
    "\n".intercalate (imports ++ body ++ exports ++ [""])

/-- The source of a component under its own name. -/
def source (options : GenerationOptions) (c : Component) : Except TextWithChildren String :=
  c.fileSource options (Name.component c.value.name)

/-- The pictures that a component shows. Nothing inside a placeholder counts. -/
def assetRequests (scale : UInt8) (c : Component) : List AssetRequest :=
  (c.cut Widget.omitted).values.filterMap fun w =>
    if w.omitted then none else w.imageRef.map fun imageRef => ⟨w.id, imageRef, scale⟩

end Component

namespace Project

/-- What the generated components are made for. -/
def framework : String := "React Native"

/-- The path of the theme. -/
def themePath : String := "tailwind.config.js"

/-- The path of the token file. -/
def tokensPath : String := "design-tokens.json"

/-- The path of the list of pictures. -/
def manifestPath : String := "assets/manifest.json"

/-- The files that carry the tokens. -/
def tokenFiles (options : GenerationOptions) : Option TokenSet → List SourceFile
  | none => []
  | some tokens =>
    ⟨themePath, tokens.themeText, .theme⟩
      :: if options.tokenFile then [⟨tokensPath, tokens.text, .theme⟩] else []

/-- The ending of the files of components. -/
def extension (options : GenerationOptions) : String := if options.typescript then "tsx" else "jsx"

/-- The paths of the files of components, given the names of the components. -/
def componentPaths (options : GenerationOptions) (components : List Component)
    (names : List String) : List String :=
  let stems := if options.screens then
      Name.assign [] (components.map fun c => Name.screen c.value.name)
    else names
  let directory := if options.screens then options.screensDir else options.componentsDir
  stems.map fun stem => directory ++ "/" ++ stem ++ "." ++ extension options

/-- The files of components. The first text with widgets inside is reported. -/
def componentFiles (options : GenerationOptions) (components : List Component) :
    Except TextWithChildren (List SourceFile) :=
  let names := Name.assign [] (components.map fun c => Name.component c.value.name)
  let kind := if options.screens then .screen else .component
  (components.zip (names.zip (componentPaths options components names))).mapM
    fun (c, name, path) => (c.fileSource options name).map fun content => ⟨path, content, kind⟩

/-- The pictures of all components, one for each node. -/
def assetsOf (options : GenerationOptions) (components : List Component) : List AssetRequest :=
  distinctBy (·.nodeId) (components.flatMap (Component.assetRequests options.assetScale))

/-- The file that lists the pictures. -/
def manifestFile (assets : List AssetRequest) : List SourceFile :=
  if assets.isEmpty then [] else [⟨manifestPath, AssetRequest.manifest assets, .asset⟩]

/-- The project for components and tokens. -/
def generate (options : GenerationOptions) (components : List Component)
    (tokens : Option TokenSet) : Except GenerationError Project :=
  if components.isEmpty && tokens.isNone then .error .emptyProject
  else
    let assets := assetsOf options components
    match componentFiles options components with
    | .error e => .error (.textWithChildren e.id)
    | .ok files => .ok {
        files := tokenFiles options tokens ++ files ++ manifestFile assets
        assets := assets }

end Project

end Handoff
