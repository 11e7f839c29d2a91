import Handoff.Script
import Handoff.Text.Basic

/-!
# Markup

Elements as they stand in the source of a script: a tag with attributes, and
nothing, a text, or other elements inside. An attribute or a text stands for
itself in quotes or between tags as long as no character of it would be
understood otherwise, and else as a string expression in braces.
-/

namespace Handoff

/-- The value of an attribute. -/
inductive AttributeValue where
  /-- A text. -/
  | text (value : String)
  /-- A value given as an expression. -/
  | expression (value : Json)

/-- A named attribute. -/
structure Attribute where
  /-- The name. -/
  name : String
  /-- The value. -/
  value : AttributeValue

/-- An element. -/
inductive Markup where
  /-- An element with nothing inside. -/
  | closed (tag : String) (attributes : List Attribute)
  /-- An element with a text inside. -/
  | text (tag : String) (attributes : List Attribute) (content : String)
  /-- An element with elements inside. -/
  | parent (tag : String) (attributes : List Attribute) (children : List Markup)

namespace Markup

/-! ### Parts of an element -/

/-- An expression in braces. -/
def braced (expression : String) : String := "\x7b" ++ expression ++ "\x7d"

/-- Whether a text can stand between double quotes as it is. -/
def isPlainAttribute (s : String) : Bool :=
  s.toList.all fun c => c != '"' && c != '\\' && c != '\n' && c != '&'

/-- A text as the value of an attribute. -/
def attributeText (s : String) : String :=
  if isPlainAttribute s then "\"" ++ s ++ "\"" else braced (Json.quote s)

/-- Characters that have a meaning of their own between tags. -/
def isMarkup (c : Char) : Bool :=
  c = '\x7b' || c = '\x7d' || c = '<' || c = '>' || c = '&' || c = '\n' || c = '\r'

/-- Whether a text can stand between tags as it is: no markup, and no blanks at its ends. -/
def isPlainContent (s : String) : Bool :=
  let cs := s.toList
  !cs.any isMarkup && !cs.head?.any Text.isBlank && !cs.getLast?.any Text.isBlank

/-- A text as the content of an element. -/
def contentText (s : String) : String := if isPlainContent s then s else braced (Json.quote s)

/-- An attribute, after a blank. -/
def attributeSource (a : Attribute) : String :=
  " " ++ a.name ++ "=" ++ match a.value with
    | .text s => attributeText s
    | .expression v => braced (Script.literal v)

/-- All attributes, each after a blank. -/
def attributesSource (attributes : List Attribute) : String :=
  String.join (attributes.map attributeSource)

/-! ### Lines -/

/-- So many blanks. -/
def blanks (count : Nat) : String := .ofList (List.replicate count ' ')

mutual
/--
The lines of an element that starts at column `indent`. What is inside starts two columns further.
-/
def lines (indent : Nat) : Markup → List String
  | closed tag attributes => [blanks indent ++ "<" ++ tag ++ attributesSource attributes ++ " />"]
  | text tag attributes content =>
    [blanks indent ++ "<" ++ tag ++ attributesSource attributes ++ ">" ++ contentText content
      ++ "</" ++ tag ++ ">"]
  | parent tag attributes children =>
    (blanks indent ++ "<" ++ tag ++ attributesSource attributes ++ ">")
      :: linesOfAll (indent + 2) children ++ [blanks indent ++ "</" ++ tag ++ ">"]
/-- The lines of elements one after the other. -/
def linesOfAll (indent : Nat) : List Markup → List String
  | [] => []
  | m :: ms => lines indent m ++ linesOfAll indent ms
end

/-- The source of an element that starts at column `indent`. -/
def source (indent : Nat) (m : Markup) : String := "\n".intercalate (m.lines indent)

end Markup

end Handoff
