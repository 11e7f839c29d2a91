import Handoff.Command.Arguments
import Handoff.Files
import Handoff.Import.Run
import Handoff.Link

/-!
# The command

What the command does with the files around it: check a link, extract the tokens
of an export, or generate a project from it. It works over any kind of access to
files, and takes the time as text.
-/

namespace Handoff.Command

/-- What the command ends with. -/
structure Outcome where
  /-- The exit code. -/
  exitCode : Nat := 0
  /-- The text for the user's further use. -/
  stdout : String := ""
  /-- The lines that tell what was done or went wrong. -/
  stderr : List String := []
  deriving DecidableEq, Repr

namespace Outcome

/-- The name and the version of the command. -/
def versionText : String := "graft 0.1.0\n"

/-- The outcome of arguments that make up no command. -/
def ofRefusal : Refusal → Outcome
  | .usage => { exitCode := 2 }
  | .help => {}
  | .version => { stdout := versionText }

/-- The outcome of an error. A component that has no markup is a failure of another kind. -/
def ofError (stdout : String) : ImportError → Outcome
  | .generation (.textWithChildren id) =>
    { exitCode := 101, stderr := [TextWithChildren.message ⟨id⟩] }
  | e => { exitCode := 1, stdout := stdout, stderr := ["Error: " ++ e.message] }

end Outcome

variable {m : Type → Type} [Monad m] [FileAccess m]

/-- A result that needs no files. -/
def ofResult {α : Type} (r : Except ImportError α) : ExceptT ImportError m α := .mk (pure r)

/-! ### Reading and writing -/

/-- Reads the settings at a path. -/
def readSettings (path : String) : ExceptT ImportError m Settings := do
  match ← (FileAccess.read path : m (Option String)) with
  | none => throw .file
  | some text =>
    match Settings.ofToml? text with
    | some settings => return settings
    | none => throw (.settings path)

/-- The settings at the path given, or in the usual file if it is there, or the defaults. -/
def loadSettings : Option String → ExceptT ImportError m Settings
  | some path => readSettings path
  | none => do
    if ← (FileAccess.isThere Settings.defaultPath : m Bool) then readSettings Settings.defaultPath
    else return {}

/-- Reads an export. -/
def loadExport (path : String) : ExceptT ImportError m Export := do
  match ← (FileAccess.read path : m (Option String)) with
  | none => throw (.source .unreadable)
  | some text =>
    match Export.load text with
    | .ok loaded => return loaded
    | .error e => throw (.source e)

/--
Writes files below a directory and gives their paths. It stops at the first that cannot be written.
-/
def writeFiles (directory : String) : List SourceFile → ExceptT ImportError m (List String)
  | [] => return []
  | file :: more => do
    let path := Path.join directory file.path
    if !(← (FileAccess.makeFolder (Path.parent path) : m Bool)) then throw .file
    if !(← (FileAccess.write path file.content : m Bool)) then throw .file
    return path :: (← writeFiles directory more)

/-! ### Requests -/

/-- The id of a document that is only known by the path of its export. -/
def documentIdOf (path : String) : String := (Path.stem? path).getD "document"

/--
The request for an export, the link it belongs to, and the nodes named besides. The latter go before
the node of the link.
-/
def requestFor (path : String) (loaded : Export) (url : Option String) (nodes : List String) :
    Except ImportError ImportRequest :=
  let named : ImportRequest := {
    documentId := documentIdOf path
    nodeIds := nodes.map Link.canonicalNodeId
    pageIds := loaded.pageIds }
  match url with
  | none => .ok named
  | some url =>
    match Link.parse url with
    | .error e => .error (.link e)
    | .ok link => .ok {
        documentId := link.documentId
        nodeIds := if named.nodeIds.isEmpty then link.nodeId.toList else named.nodeIds
        pageIds := match link.pageId with
          | some pageId => [pageId]
          | none => named.pageIds }

/-! ### Actions -/

/-- Checks a link and prints the report. -/
def checkLink (url : String) : Outcome :=
  let report := Link.check url
  let stdout := report.toJson.pretty ++ "\n"
  match report.ensureValid with
  | .ok () => { stdout := stdout }
  | .error e => .ofError stdout e

/-- Extracts the tokens of an export and prints or writes them. -/
def extractTokens (time path : String) (url out : Option String) (settings : Settings) :
    ExceptT ImportError m Outcome := do
  let loaded ← loadExport path
  let request ← ofResult (requestFor path loaded url [])
  let tokens := Import.tokens request settings time loaded.roots
  match out with
  | none => return { stdout := tokens.text ++ "\n" }
  | some out =>
    if !(← (FileAccess.write out tokens.text : m Bool)) then throw .file
    return { stderr := ["Wrote " ++ tokens.size.repr ++ " tokens to " ++ out] }

/-- Generates a project from an export and writes it. -/
def generateProject (time path : String) (url out : Option String) (nodes : List String)
    (settings : Settings) : ExceptT ImportError m Outcome := do
  let loaded ← loadExport path
  let request ← ofResult (requestFor path loaded url nodes)
  let project ← ofResult (Import.project request settings time loaded.roots)
  let directory := out.getD settings.outputDir
  let written ← writeFiles directory project.files
  let pictures := if project.assets.isEmpty then [] else
    [project.assets.length.repr ++ " image assets listed in the asset manifest"]
  return {
    stderr := ["Generated " ++ written.length.repr ++ " files in " ++ directory] ++ pictures }

/-- Does what the arguments say. -/
def run (time : String) (args : List String) : m Outcome := do
  match read args with
  | .error refusal => return .ofRefusal refusal
  | .ok invocation =>
    let outcome : ExceptT ImportError m Outcome := match invocation.action with
      | .parse url => return checkLink url
      | .tokens path url out => do
        extractTokens time path url out (← loadSettings invocation.config)
      | .generate path url out nodes screen js => do
        let settings ← loadSettings invocation.config
        let generate := { settings.generate with
          screens := settings.generate.screens || screen
          typescript := settings.generate.typescript && !js }
        generateProject time path url out nodes { settings with generate := generate }
    match ← outcome.run with
    | .ok outcome => return outcome
    | .error e => return .ofError "" e

end Handoff.Command
