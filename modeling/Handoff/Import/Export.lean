import Handoff.Json.Reader
import Handoff.Scene.Json

/-!
# Exports

An export is the JSON text of a whole document or of a single node. What is
imported from it are its roots: the pages of a document, or that node. Nodes are
fetched by id, and cut below a depth if one is given.
-/

namespace Handoff

/-- Why nothing can be taken from an export. -/
inductive ExportError where
  /-- The export does not exist. -/
  | notFound (documentId : String)
  /-- No node has the id. -/
  | nodeNotFound (documentId id : String)
  /-- The export cannot be read. -/
  | unreadable
  /-- The export is neither a document nor a node. -/
  | malformed
  deriving DecidableEq, Repr

namespace ExportError

/-- What is told about the error. -/
def message : ExportError → String
  | notFound documentId => "Document " ++ documentId ++ " not found"
  | nodeNotFound documentId id => "Node " ++ id ++ " not found in document " ++ documentId
  | unreadable => "Failed to read document: no text at this path"
  | malformed => "Malformed document payload: neither a document nor a node"

end ExportError

/-- What an export holds. -/
structure Export where
  /-- The name of the document, if it has one. -/
  name : Option String
  /-- The pages of the document, or the single node. -/
  roots : Forest Layer
  /-- The ids of the pages. -/
  pageIds : List String

namespace Export

/-- What a document holds. -/
def ofDocument (d : Document) : Export where
  name := if d.name = "" then none else some d.name
  roots := d.pages
  pageIds := d.pageIds

/-- What a single node is, taken as an export. -/
def ofNode (n : Node) : Export where
  name := none
  roots := [n]
  pageIds := []

/-- Whether a value is an object with a document in it. -/
def hasDocument : Json → Bool
  | .object fields => (fields.lookup "document").isSome
  | _ => false

/-- Reads an export from JSON. -/
def ofJson? (v : Json) : Option Export :=
  if hasDocument v then (Document.ofJson? v).map ofDocument else (Node.ofJson? v).map ofNode

/-- Reads an export from its text. -/
def load (text : String) : Except ExportError Export :=
  match (Json.read? text).bind ofJson? with
  | some loaded => .ok loaded
  | none => .error .malformed

end Export

/-- What to fetch from an export. -/
structure Selection where
  /-- The ids of the nodes to fetch, or none for all roots. -/
  nodeIds : List String := []
  /-- How many levels to keep below each of them. -/
  depth : Option Nat := none

namespace Selection

/--
The nodes of a forest with the ids given, in the order of the ids. The first id without a node is
reported.
-/
def nodes (documentId : String) (nodeIds : List String) (roots : Forest Layer) :
    Except ExportError (List Node) :=
  nodeIds.mapM fun id =>
    match Node.findById? id roots with
    | some node => .ok node
    | none => .error (.nodeNotFound documentId id)

/-- What a selection fetches from a forest. -/
def fetch (s : Selection) (documentId : String) (roots : Forest Layer) :
    Except ExportError (List Node) :=
  let found := if s.nodeIds.isEmpty then .ok roots else nodes documentId s.nodeIds roots
  match s.depth with
  | none => found
  | some depth => found.map fun nodes => nodes.map (Tree.truncate depth)

/-- What a selection fetches from the export whose text is given. Without a text there is none. -/
def fetchFrom (s : Selection) (documentId : String) : Option String → Except ExportError (List Node)
  | none => .error (.notFound documentId)
  | some text => (Export.load text).bind fun loaded => s.fetch documentId loaded.roots

end Selection

end Handoff
