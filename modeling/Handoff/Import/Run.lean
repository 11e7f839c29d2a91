import Handoff.Component.Convert
import Handoff.Import.Export
import Handoff.Import.Settings
import Handoff.Link
import Handoff.Project.Generate

/-!
# Imports

An import takes the tokens from the whole of an export and turns the selected
nodes into the components of a project. Without a selection these are the roots,
where a page or a document counts as what is right inside it. An import starts
from the text of an export.
-/

namespace Handoff

/-- What to import. -/
structure ImportRequest where
  /-- The id of the document. -/
  documentId : String := ""
  /-- The ids of the selected nodes. -/
  nodeIds : List String := []
  /-- The ids of the pages, as they are noted with the tokens. -/
  pageIds : List String := []
  deriving DecidableEq, Repr

/-- Why an import stops. -/
inductive ImportError where
  /-- The text given as link is none. -/
  | link (cause : LinkError)
  /-- The export does not give what is asked for. -/
  | source (cause : ExportError)
  /-- The project cannot be generated. -/
  | generation (cause : GenerationError)
  /-- A file cannot be read or written. -/
  | file
  /-- The settings cannot be understood. -/
  | settings (path : String)
  /-- A link was required to be valid. -/
  | invalidLink (cause : LinkError)
  deriving DecidableEq, Repr

namespace ImportError

/-- What is told about the error. -/
def message : ImportError → String
  | link cause => cause.message
  | source cause => cause.message
  | generation cause => cause.message
  | file => "IO error: the file is not accessible"
  | settings path => "Configuration error: " ++ path ++ ": these are no settings"
  | invalidLink cause => "Invalid design reference: " ++ cause.message

end ImportError

namespace LinkReport

/-- Accepts the report of a valid link. -/
def ensureValid (r : LinkReport) : Except ImportError Unit :=
  match r.error with
  | none => .ok ()
  | some cause => .error (.invalidLink cause)

end LinkReport

namespace Import

/--
The roots of components where nothing is selected: pages and documents count as their children.
-/
def componentRoots (roots : Forest Layer) : List Node :=
  roots.flatMap fun root => if root.value.isContainer then root.children else [root]

/-- The nodes that become components. -/
def selected (request : ImportRequest) (roots : Forest Layer) : Except ExportError (List Node) :=
  if request.nodeIds.isEmpty then .ok (componentRoots roots)
  else Selection.nodes request.documentId request.nodeIds roots

/-- The tokens of all roots, stamped with the document, the pages and the time. -/
def tokens (request : ImportRequest) (settings : Settings) (time : String) (roots : Forest Layer) :
    TokenSet :=
  (TokenSet.extract roots settings.extract).stamped request.documentId request.pageIds time

/-- The project of an import at the time given. -/
def project (request : ImportRequest) (settings : Settings) (time : String) (roots : Forest Layer) :
    Except ImportError Project := do
  let nodes ← (selected request roots).mapError .source
  let components := nodes.map (Node.convert settings.convert .standard)
  (Project.generate settings.generate components
    (some (tokens request settings time roots))).mapError .generation

/-- The tokens of the export whose text is given. -/
def extractTokens (request : ImportRequest) (settings : Settings) (time : String)
    (text : Option String) : Except ImportError TokenSet := do
  let roots ← (({} : Selection).fetchFrom request.documentId text).mapError .source
  return tokens request settings time roots

/-- The import of the export whose text is given. -/
def run (request : ImportRequest) (settings : Settings) (time : String) (text : Option String) :
    Except ImportError Project := do
  let roots ← (({} : Selection).fetchFrom request.documentId text).mapError .source
  project request settings time roots

end Import

end Handoff
