import Handoff.Json.Basic
import Handoff.Text.Basic

/-!
# Writing JSON

The two forms in which a JSON value is written: on one line without blanks, and
over several lines with two blanks for each level.
-/

namespace Handoff.Json

/--
The layout of numbers in JSON: written out in places from `0.00001` up to `10 ^ 16`, a whole number
with `.0`, and the nearer even digits.
-/
def numberLayout : NumberLayout where
  isPositional exponent := -5 ≤ exponent && exponent < 16
  wholeEnding := ['.', '0']
  tie := .toEven
  infinity := []
  notANumber := []

/-- The text of a number. -/
def floatText (x : Binary64) : String :=
  if x.isFinite then .ofList (numberLayout.text x) else "null"

/-- A character inside a string: quotes, backslashes and control characters are escaped. -/
def escape (c : Char) : List Char :=
  if c = '"' then ['\\', '"']
  else if c = '\\' then ['\\', '\\']
  else if c = '\n' then ['\\', 'n']
  else if c = '\r' then ['\\', 'r']
  else if c = '\t' then ['\\', 't']
  else if c = '\x08' then ['\\', 'b']
  else if c = '\x0c' then ['\\', 'f']
  else if c < ' ' then
    ['\\', 'u', '0', '0', Text.lowerHexDigit (c.toNat / 16), Text.lowerHexDigit (c.toNat % 16)]
  else [c]

/-- A string in double quotes. -/
def quote (s : String) : String := .ofList ('"' :: s.toList.flatMap escape ++ ['"'])

mutual
/-- The text of a value on one line. -/
def compact : Json → String
  | .null => "null"
  | .bool b => if b then "true" else "false"
  | .integer n => n.repr
  | .float x => floatText x
  | .string s => quote s
  | .array items => "[" ++ ",".intercalate (compactItems items) ++ "]"
  | .object fields => "\x7b" ++ ",".intercalate (compactFields fields) ++ "\x7d"
/-- The texts of the items of a list. -/
def compactItems : List Json → List String
  | [] => []
  | item :: more => compact item :: compactItems more
/-- The texts of fields, each after its name. -/
def compactFields : List (String × Json) → List String
  | [] => []
  | (name, value) :: more => (quote name ++ ":" ++ compact value) :: compactFields more
end

/-- The items in brackets, each on its line, the brackets `level` levels deep. -/
def bracketed (level : Nat) (opening closing : String) (items : List String) : String :=
  if items.isEmpty then opening ++ closing
  else
    let inner := "\n" ++ "".pushn ' ' (2 * (level + 1))
    opening ++ inner ++ ("," ++ inner).intercalate items
      ++ "\n" ++ "".pushn ' ' (2 * level) ++ closing

mutual
/-- The text of a value over several lines, starting `level` levels deep. -/
def prettyAt (level : Nat) : Json → String
  | .array items => bracketed level "[" "]" (prettyItems (level + 1) items)
  | .object fields => bracketed level "\x7b" "\x7d" (prettyFields (level + 1) fields)
  | .null => "null"
  | .bool b => if b then "true" else "false"
  | .integer n => n.repr
  | .float x => floatText x
  | .string s => quote s
/-- The texts of the items of a list. -/
def prettyItems (level : Nat) : List Json → List String
  | [] => []
  | item :: more => prettyAt level item :: prettyItems level more
/-- The texts of fields, each after its name. -/
def prettyFields (level : Nat) : List (String × Json) → List String
  | [] => []
  | (name, value) :: more => (quote name ++ ": " ++ prettyAt level value) :: prettyFields level more
end

/-- The text of a value over several lines. -/
def pretty (value : Json) : String := prettyAt 0 value

end Handoff.Json
