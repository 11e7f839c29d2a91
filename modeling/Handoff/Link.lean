import Handoff.Json.Basic
import Handoff.Text.Basic
import Handoff.Text.Utf8

/-!
# Links to designs

A link names a design file, and it may select a node and name a page. The id of
a node is written with colons; in links the colons are dashes or escapes.

The id of the file stands right after the first `/file/` or `/design/` that
letters or digits follow, and its name in the next part of the path. The query
gives the selected node and the page: of several the first that is not empty,
or a number. What follows a number sign does not count. A link is written in one
canonical form.
-/

namespace Handoff

/-- What a link says. -/
structure Link where
  /-- The id of the file. -/
  documentId : String
  /-- The id of the selected node. -/
  nodeId : Option String := none
  /-- The name of the file. -/
  documentName : Option String := none
  /-- The id of the page. -/
  pageId : Option String := none
  deriving DecidableEq, Repr

/-- Why a text is not a link to a design. -/
inductive LinkError where
  /-- There is no text. -/
  | empty
  /-- The host is not mentioned. -/
  | unrecognizedHost
  /-- No file is named. -/
  | missingDocumentId
  deriving DecidableEq, Repr

namespace LinkError

/-- What is told about the error. -/
def message : LinkError → String
  | empty => "A design file URL is required"
  | unrecognizedHost => "Not a recognized design file URL (expected a figma.com link)"
  | missingDocumentId =>
    "Could not find a file id in the URL (expected /file/<id> or /design/<id>)"

end LinkError

/-- The outcome of a check: what the link says, or why the text is refused. -/
structure LinkReport where
  /-- Whether the text is a link. -/
  valid : Bool
  /-- What it says. -/
  link : Option Link := none
  /-- Why it is refused. -/
  error : Option LinkError := none
  /-- What its author may want to know. -/
  warnings : List String := []
  deriving DecidableEq, Repr

/-! ### Escapes -/

namespace Percent

/-- The octets that a text with escapes stands for. A percent sign without two digits is itself. -/
def octets : List Char → List UInt8
  | [] => []
  | '%' :: high :: low :: rest =>
    match Text.hexDigit? high, Text.hexDigit? low with
    | some h, some l => .ofNat (16 * h + l) :: octets rest
    | _, _ => String.utf8EncodeChar '%' ++ octets (high :: low :: rest)
  | c :: rest => String.utf8EncodeChar (if c = '+' then ' ' else c) ++ octets rest

/-- The text that a text with escapes stands for. -/
def decode (s : List Char) : List Char := Text.Utf8.decode (octets s)

end Percent

namespace Link

/-- The host that every link mentions. -/
def host : String := "figma.com"

/-- The warning about a link that selects nothing. -/
def noSelectionWarning : String := "No frame selected - importing all frames"

/-- The id of a node as it is written everywhere but in links. -/
def canonicalId (raw : List Char) : List Char :=
  Text.replace '-' ':' (Text.trim (Percent.decode raw))

/-- The id of a node given in any spelling. -/
def canonicalNodeId (raw : String) : String := .ofList (canonicalId raw.toList)

/-! ### Reading -/

/-- Whether a character can stand in the id of a file. -/
def isIdChar (c : Char) : Bool := c.isAlphanum

/-- The id after a route at the start of the text, and what follows it. -/
def route? (s : List Char) : Option (List Char × List Char) :=
  let rest := (Text.after? "/file/".toList s).or (Text.after? "/design/".toList s)
  rest.bind fun rest =>
    let id := rest.takeWhile isIdChar
    if id.isEmpty then none else some (id, rest.dropWhile isIdChar)

/-- The first route anywhere in a path. -/
def findRoute? : List Char → Option (List Char × List Char)
  | [] => none
  | c :: rest => (route? (c :: rest)).or (findRoute? rest)

/-- The name in what follows the id, with blanks for dashes. A blank name is none. -/
def name? (afterId : List Char) : Option (List Char) :=
  match afterId with
  | '/' :: rest =>
    let part := Text.before '/' rest
    let name := Text.replace '-' ' ' (Percent.decode part)
    if part.isEmpty || (Text.trim name).isEmpty then none else some name
  | _ => none

/-- The parameters of a query. -/
def parameters (query : List Char) : List (List Char × List Char) :=
  ((query.splitOn '&').filter fun part => !part.isEmpty).map fun part =>
    (Text.before '=' part, Text.behind '=' part)

/-- The values of the parameters with the name given. -/
def valuesOf (name : String) (query : List Char) : List (List Char) :=
  ((parameters query).filter fun p => p.1 = name.toList).map (·.2)

/-- The first node that the query selects. -/
def selectedNode? (query : List Char) : Option (List Char) :=
  ((valuesOf "node-id" query).map canonicalId).find? fun id => !id.isEmpty

/-- The first page that the query names by a number. -/
def selectedPage? (query : List Char) : Option (List Char) :=
  (valuesOf "page-id" query).find? fun id => !id.isEmpty && id.all Char.isDigit

/-- What a link says. Blanks around it do not count. -/
def parse (reference : String) : Except LinkError Link :=
  let text := Text.trim reference.toList
  if text.isEmpty then .error .empty
  else if !Text.occurs host.toList text then .error .unrecognizedHost
  else
    let link := Text.before '#' text
    let query := Text.behind '?' link
    match findRoute? (Text.before '?' link) with
    | none => .error .missingDocumentId
    | some (id, afterId) => .ok {
        documentId := .ofList id
        nodeId := (selectedNode? query).map .ofList
        documentName := (name? afterId).map .ofList
        pageId := (selectedPage? query).map .ofList }

/-- A report on a link, which never fails. -/
def check (reference : String) : LinkReport :=
  match parse reference with
  | .ok link => {
      valid := true
      link := some link
      warnings := if link.nodeId.isNone then [noSelectionWarning] else [] }
  | .error e => { valid := false, error := some e }

/-! ### Links inside other text -/

/-- Whether a character can stand in the id of a node as it is spelled in links. -/
def isNodeIdChar (c : Char) : Bool := c.isAlphanum || c = '-' || c = ':' || c = ';' || c = '%'

/-- The spellings of ids after each `node-id=` in a text. -/
def spelledIds : List Char → List (List Char)
  | [] => []
  | c :: rest =>
    match Text.after? "node-id=".toList (c :: rest) with
    | some spelled => spelled.takeWhile isNodeIdChar :: spelledIds rest
    | none => spelledIds rest

/-- The ids of all nodes that a text selects, in order. -/
def extractIds (text : String) : List String :=
  (((spelledIds text.toList).map canonicalId).filter fun id => !id.isEmpty).map .ofList

/-! ### Writing -/

/-- The start of every canonical link. -/
def base : String := "https://www.figma.com/design"

/--
A name in a link: its words joined by dashes, ASCII letters, digits, dashes and underscores only.
-/
def nameSlug (name : List Char) : List Char :=
  let kept := (Text.words name).map fun word =>
    word.filter fun c => c.isAlphanum || c = '-' || c = '_'
  ['-'].intercalate (kept.filter fun word => !word.isEmpty)

/-- The canonical link. A file without a usable name is called `Untitled`. -/
def build (l : Link) : String :=
  let slug := (l.documentName.map fun name => nameSlug name.toList).getD []
  let name := if slug.isEmpty then "Untitled" else .ofList slug
  let node := match l.nodeId with
    | some id => ["node-id=" ++ .ofList (Text.replace ':' '-' id.toList)]
    | none => []
  let page := match l.pageId with
    | some id => ["page-id=" ++ id]
    | none => []
  let query := if (node ++ page).isEmpty then "" else "?" ++ "&".intercalate (node ++ page)
  base ++ "/" ++ l.documentId ++ "/" ++ name ++ query

/-- Writes what a link says, leaving out what it does not say. -/
def toJson (l : Link) : Json :=
  .object ([("documentId", .string l.documentId)]
    ++ Json.ifSome "subtreeId" .string l.nodeId
    ++ Json.ifSome "documentName" .string l.documentName
    ++ Json.ifSome "pageId" .string l.pageId)

end Link

namespace LinkReport

/-- Writes a report. -/
def toJson (r : LinkReport) : Json :=
  .object ([("valid", .bool r.valid)]
    ++ Json.ifSome "reference" Link.toJson r.link
    ++ Json.ifSome "error" (fun e => .string e.message) r.error
    ++ [("warnings", .array (r.warnings.map .string))])

end LinkReport

end Handoff
