/-!
# Files

Paths of files are texts with parts between slashes; empty parts and single points
do not count. What a command needs of the files around it is a class, and files kept
in memory are an instance of it: they form a tree of folders below the working
directory. A path is followed part by part through folders that are there; two points
lead up, also beyond the working directory.
-/

namespace Handoff

/-! ### Paths -/

namespace Path

/-- All parts of a path, between slashes. -/
def parts (path : String) : List String := (path.toList.splitOn '/').map .ofList

/-- Whether a part counts. -/
def counts (part : String) : Bool := part != "" && part != "."

/-- The parts that count. -/
def names (path : String) : List String := (parts path).filter counts

/-- Whether a path starts at the root. -/
def isAbsolute (path : String) : Bool := path.toList.head? = some '/'

/-- The path of a file below a directory. An absolute path stays as it is. -/
def join (directory path : String) : String :=
  if isAbsolute path ∨ directory = "" then path
  else if directory.toList.getLast? = some '/' then directory ++ path
  else directory ++ "/" ++ path

/-- The path of the directory that a file is in: all before the last part that counts. -/
def parent (path : String) : String :=
  let beforeLast := ((parts path).reverse.dropWhile (!counts ·)).drop 1
  match (beforeLast.dropWhile (!counts ·)).reverse with
  | [] => if isAbsolute path then "/" else ""
  | kept => "/".intercalate kept

/-- The name before its last point. A point at the start belongs to the name. -/
def beforePoint (name : List Char) : List Char :=
  match (name.reverse.dropWhile (· ≠ '.')).drop 1 with
  | [] => name
  | before => before.reverse

/-- The name of the file without its ending, if the path names a file. -/
def stem? (path : String) : Option String :=
  match (names path).getLast? with
  | none | some ".." => none
  | some name => some (.ofList (beforePoint name.toList))

end Path

/-! ### Access -/

/-- The operations on files that commands use. -/
class FileAccess (m : Type → Type) where
  /-- The text of a file, if there is one at the path. -/
  read : String → m (Option String)
  /-- Whether there is a file or a folder at the path. -/
  isThere : String → m Bool
  /-- Makes a folder and those it is in; whether that was possible. -/
  makeFolder : String → m Bool
  /-- Writes a file into a folder that is there; whether that was possible. -/
  write : String → String → m Bool

/--
Files and folders in memory. Each is known by its path from the working directory, or from the root,
in which all parts count and two points only stand at the start.
-/
structure FileStore where
  /-- The files with their texts. -/
  files : List (String × String) := []
  /-- The folders apart from the working directory and those above it. -/
  folders : List String := []
  deriving DecidableEq, Repr

/-- The parts of a path in a store. -/
abbrev Location := List String

namespace FileStore

/-! ### Locations -/

/-- Names may have this many octets. -/
def nameLimit : Nat := 255

/-- Paths have fewer octets than this. -/
def pathLimit : Nat := 4096

/-- The path of a location. -/
def pathOf (l : Location) : String := "/".intercalate l

/-- Where one part of a path leads. -/
def step (l : Location) (part : String) : Location :=
  if !Path.counts part then l
  else if part = ".." then
    match l.getLast? with
    | none | some ".." => l ++ [".."]
    | some "/" => l
    | some _ => l.dropLast
  else l ++ [part]

/-- Where a path starts. -/
def start (path : String) : Location := if Path.isAbsolute path then ["/"] else []

/-- Whether there is a folder. The folders above the working directory are always there. -/
def isFolder (s : FileStore) (l : Location) : Bool :=
  l.all (· == "..") || l == ["/"] || pathOf l ∈ s.folders

/-- The text of the file at a location. -/
def fileAt? (s : FileStore) (l : Location) : Option String := s.files.lookup (pathOf l)

/-- Whether a part of a path can be the name of a file. -/
def isName (part : String) : Bool := Path.counts part && part != ".."

/-- Whether a text can be a path. -/
def isPath (path : String) : Bool :=
  path != "" && !path.toList.contains '\x00' && path.utf8ByteSize < pathLimit

/-- Whether a part of a path is too long to be followed. -/
def isTooLong (part : String) : Bool := nameLimit < part.utf8ByteSize

/-- Where parts of a path lead through folders that are there. -/
def follow? (s : FileStore) (l : Location) : List String → Option Location
  | [] => some l
  | part :: more =>
    let next := step l part
    if s.isFolder next then s.follow? next more else none

/-- Where a path leads, and whether its last part can be the name of a file. -/
def locate? (s : FileStore) (path : String) : Option (Location × Bool) :=
  if isPath path then
    match (Path.parts path).reverse with
    | last :: before =>
      if isTooLong last then none
      else (s.follow? (start path) before.reverse).map fun folder => (step folder last, isName last)
    | [] => none
  else none

/-! ### Operations -/

/-- The text of a file. -/
def read? (s : FileStore) (path : String) : Option String :=
  match s.locate? path with
  | some (l, true) => s.fileAt? l
  | _ => none

/-- Whether there is a file or a folder at the path. -/
def contains (s : FileStore) (path : String) : Bool :=
  match s.locate? path with
  | some (l, isFile) => s.isFolder l || (isFile && (s.fileAt? l).isSome)
  | none => false

/--
Makes the folders that the parts of a path lead through, up to the first that cannot be made;
whether all could.
-/
def makeAlong (s : FileStore) (l : Location) : List String → Bool × FileStore
  | [] => (true, s)
  | part :: more =>
    let next := step l part
    if s.isFolder next then s.makeAlong next more
    else if isTooLong part || (s.fileAt? next).isSome then (false, s)
    else makeAlong { s with folders := pathOf next :: s.folders } next more

/-- Makes a folder and those it is in. The empty path is the working directory. -/
def makeFolder (s : FileStore) (path : String) : Bool × FileStore :=
  if path = "" then (true, s)
  else if isPath path then s.makeAlong (start path) (Path.parts path)
  else (false, s)

/-- Writes a file into a folder that is there. -/
def write (s : FileStore) (path text : String) : Bool × FileStore :=
  match s.locate? path with
  | some (l, true) =>
    if s.isFolder l then (false, s)
    else
      let file := pathOf l
      (true, { s with files := (file, text) :: s.files.filter fun other => other.1 ≠ file })
  | _ => (false, s)

/-- The files below the working directory, with their paths. -/
def entries (s : FileStore) : List (String × String) :=
  s.files.filter fun file => !Path.isAbsolute file.1 && (Path.parts file.1).head? != some ".."

instance : FileAccess (StateM FileStore) where
  read path := fun s => (s.read? path, s)
  isThere path := fun s => (s.contains path, s)
  makeFolder path := fun s => s.makeFolder path
  write path text := fun s => s.write path text

end FileStore

end Handoff
