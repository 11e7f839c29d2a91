import Handoff.Json.Basic

/-!
# TOML documents

The values of a TOML document and the rules by which its statements build up
tables. A table remembers how it came to be, because that decides what may still
be added: a table in braces is complete, one made by a dotted key takes further
dotted keys, one made by the path of a header may still get a header of its own,
and one that has a header may not get another.
-/

namespace Handoff

/-- How a table came to be. -/
inductive TableForm where
  /-- Written in braces. -/
  | braces
  /-- Made by a dotted key. -/
  | dotted
  /-- Made by the path of the header of another table. -/
  | implied
  /-- Has a header, or is the document itself. -/
  | header
  deriving DecidableEq, Repr

/-- A TOML value. -/
inductive Toml where
  /-- A text. -/
  | string (value : String)
  /-- An integer of 64 bits. -/
  | integer (value : Int)
  /-- A number with point or exponent. -/
  | float (value : Binary64)
  /-- A truth value. -/
  | bool (value : Bool)
  /-- A date, a time, or both. -/
  | dateTime
  /-- A list of values. -/
  | array (items : List Toml)
  /-- A table. -/
  | table (form : TableForm) (entries : List (String × Toml))
  /-- The tables of a header in double brackets. -/
  | tables (items : List (List (String × Toml)))

namespace Toml

/-- The entries of a table, in order. -/
abbrev Entries := List (String × Toml)

/-- The entries with another value under a key they have. -/
def Entries.set (key : String) (value : Toml) (entries : Entries) : Entries :=
  entries.map fun entry => if entry.1 = key then (key, value) else entry

/-! ### Building tables -/

/--
Changes the table that a path leads to, making the tables on the way that are not there. In a list
of tables the path goes on in the last. A dotted path does not enter tables that have a header.
-/
def within (isDotted : Bool) (change : TableForm → Entries → Option Entries) :
    List String → TableForm → Entries → Option Entries
  | [], form, entries => change form entries
  | key :: path, _, entries =>
    match entries.lookup key with
    | none =>
      let form : TableForm := if isDotted then .dotted else .implied
      (within isDotted change path form []).map fun inner => entries ++ [(key, .table form inner)]
    | some (.table form inner) =>
      if form = .braces ∨ (isDotted ∧ form = .header) then none
      else (within isDotted change path form inner).map fun inner =>
        Entries.set key (.table form inner) entries
    | some (.tables items) =>
      match items.reverse with
      | last :: others => (within isDotted change path .header last).map fun inner =>
        Entries.set key (.tables (inner :: others).reverse) entries
      | [] => none
    | some _ => none

/--
Puts a value under the last key of a path. It must be free, and a path makes or enters dotted tables
only.
-/
def insert (path : List String) (key : String) (value : Toml) :
    TableForm → Entries → Option Entries :=
  within true (fun form entries =>
    if (form = .dotted) = path.isEmpty then none
    else match entries.lookup key with
      | none => some (entries ++ [(key, value)])
      | some _ => none) path

/--
Opens the table under the last key of a path. It must be new or known from other headers only.
-/
def openTable (path : List String) (key : String) : Entries → Option Entries :=
  within false (fun _ entries =>
    match entries.lookup key with
    | none => some (entries ++ [(key, .table .header [])])
    | some (.table .implied inner) => some (Entries.set key (.table .header inner) entries)
    | some _ => none) path .header

/-- Opens one more table in the list of tables under the last key of a path. -/
def openItem (path : List String) (key : String) : Entries → Option Entries :=
  within false (fun _ entries =>
    match entries.lookup key with
    | none => some (entries ++ [(key, .tables [[]])])
    | some (.tables items) => some (Entries.set key (.tables (items ++ [[]])) entries)
    | some _ => none) path .header

/-! ### Statements -/

/-- A path of keys, the last one apart. -/
structure KeyPath where
  /-- The keys before the last. -/
  path : List String
  /-- The last key. -/
  key : String
  deriving DecidableEq, Repr

/-- A line of a document. -/
inductive Statement where
  /-- A value under a key. -/
  | entry (key : KeyPath) (value : Toml)
  /-- The header of a table. -/
  | table (key : KeyPath)
  /-- The header of one more table of a list. -/
  | item (key : KeyPath)

/-- The entries of a document and the path of the table that entries go to. -/
structure Document where
  /-- The path of the open table. -/
  current : List String := []
  /-- The entries so far. -/
  entries : Entries := []

namespace Document

/-- The document after one more statement. -/
def add (d : Document) : Statement → Option Document
  | .entry k value =>
    (within false (insert k.path k.key value) d.current .header d.entries).map fun entries =>
      { d with entries }
  | .table k => (openTable k.path k.key d.entries).map fun entries => ⟨k.path ++ [k.key], entries⟩
  | .item k => (openItem k.path k.key d.entries).map fun entries => ⟨k.path ++ [k.key], entries⟩

/-- The document that statements build. -/
def ofStatements (statements : List Statement) : Option Document := statements.foldlM add {}

end Document

/-- The table in braces that entries build. -/
def ofBraces (entries : List (KeyPath × Toml)) : Option Toml :=
  (entries.foldlM (fun sofar entry => insert entry.1.path entry.1.key entry.2 .braces sofar) []).map
    (.table .braces)

/-! ### TOML as JSON -/

mutual
/--
The JSON value with the same contents. A date or a time is no value there, and becomes an empty
object.
-/
def toJson : Toml → Json
  | .string s => .string s
  | .integer n => .integer n
  | .float x => .float x
  | .bool b => .bool b
  | .dateTime => .object []
  | .array items => .array (listToJson items)
  | .table _ entries => .object (entriesToJson entries)
  | .tables items => .array (tablesToJson items)
/-- The JSON values of a list. -/
def listToJson : List Toml → List Json
  | [] => []
  | item :: more => toJson item :: listToJson more
/-- The JSON fields of entries. -/
def entriesToJson : List (String × Toml) → List (String × Json)
  | [] => []
  | (key, value) :: more => (key, toJson value) :: entriesToJson more
/-- The JSON objects of tables. -/
def tablesToJson : List (List (String × Toml)) → List Json
  | [] => []
  | entries :: more => .object (entriesToJson entries) :: tablesToJson more
end

end Toml

end Handoff
