import Handoff.Json.Printer

/-!
# Script literals

Values as they stand in the source of a script: strings in single quotes, keys
of objects without quotes where they are identifiers, and lists and objects on
one line.
-/

namespace Handoff.Script

/-- A character inside a string: the quote, the backslash and the breaks of a line are escaped. -/
def escape (c : Char) : List Char :=
  if c = '\\' then ['\\', '\\']
  else if c = '\'' then ['\\', '\'']
  else if c = '\n' then ['\\', 'n']
  else if c = '\r' then ['\\', 'r']
  else if c = '\t' then ['\\', 't']
  else [c]

/-- A string in single quotes. -/
def quote (s : String) : String := .ofList ('\'' :: s.toList.flatMap escape ++ ['\''])

/-- Whether a character may start an identifier. -/
def startsIdentifier (c : Char) : Bool := c.isAlpha || c = '_' || c = '$'

/-- Whether a character may stand inside an identifier. -/
def continuesIdentifier (c : Char) : Bool := c.isAlphanum || c = '_' || c = '$'

/-- Whether a text is an identifier of ASCII characters. -/
def isIdentifier (s : String) : Bool :=
  match s.toList with
  | [] => false
  | c :: rest => startsIdentifier c && rest.all continuesIdentifier

/-- The key of an object, in quotes unless it is an identifier. -/
def key (s : String) : String := if isIdentifier s then s else quote s

mutual
/-- The literal of a value. -/
def literal : Json → String
  | .null => "null"
  | .bool b => if b then "true" else "false"
  | .integer n => n.repr
  | .float x => Json.floatText x
  | .string s => quote s
  | .array items => "[" ++ ", ".intercalate (literals items) ++ "]"
  | .object [] => "\x7b\x7d"
  | .object (field :: more) => "\x7b " ++ ", ".intercalate (entries (field :: more)) ++ " \x7d"
/-- The literals of the items of a list. -/
def literals : List Json → List String
  | [] => []
  | item :: more => literal item :: literals more
/-- The literals of fields, each after its key. -/
def entries : List (String × Json) → List String
  | [] => []
  | (name, value) :: more => (key name ++ ": " ++ literal value) :: entries more
end

end Handoff.Script
