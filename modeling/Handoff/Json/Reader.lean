import Handoff.Json.Basic
import Handoff.Text.Basic
import Handoff.Text.Parser

/-!
# Reading JSON

A reader of strict JSON: no comments, no trailing commas, no control characters
inside strings, no lone halves of surrogate pairs, no numbers beyond the range
of double precision. Lists and objects may be nested to a limit, which is also
what the recursion goes by.
-/

namespace Handoff.Json

open Handoff.Parser

/-- Blanks between the parts of a value. -/
def blanks : Parser Unit := do
  let _ ← takeWhile fun c => c = ' ' || c = '\t' || c = '\n' || c = '\r'

/-! ### Strings -/

/-- The code unit that four hexadecimal digits stand for. -/
def codeUnit : Parser Nat := do
  lift (Text.hexNumber? (← take 4))

/-- The character after a backslash. Two escapes make up a surrogate pair. -/
def escaped : Parser Char := do
  let c ← satisfy fun _ => true
  match c with
  | '"' | '\\' | '/' => pure c
  | 'b' => pure '\x08'
  | 'f' => pure '\x0c'
  | 'n' => pure '\n'
  | 'r' => pure '\r'
  | 't' => pure '\t'
  | 'u' =>
    let high ← codeUnit
    if 0xD800 ≤ high ∧ high < 0xDC00 then
      text ['\\', 'u']
      let low ← codeUnit
      if 0xDC00 ≤ low ∧ low < 0xE000 then
        pure (Char.ofNat (0x10000 + (high - 0xD800) * 0x400 + (low - 0xDC00)))
      else failure
    else if 0xDC00 ≤ high ∧ high < 0xE000 then failure
    else pure (Char.ofNat high)
  | _ => failure

/-- One character of a string. -/
def stringChar : Parser Char
  | '\\' :: rest => escaped rest
  | '"' :: _ => none
  | c :: rest => if c < ' ' then none else some (c, rest)
  | [] => none

/-- A string in double quotes. -/
def stringLiteral : Parser String := do
  char '"'
  let cs ← many stringChar
  char '"'
  return .ofList cs

/-! ### Numbers -/

/-- The digits before the point: zero alone, or digits that do not start with one. -/
def wholeDigits : Parser (List Char) := do
  let digits ← takeWhile1 isDigit
  if digits.length > 1 && digits.head? = some '0' then failure else pure digits

/-- The exponent after its letter. -/
def exponent : Parser Int := do
  let _ ← satisfy fun c => c = 'e' || c = 'E'
  let sign ← option (satisfy fun c => c = '+' || c = '-')
  let digits ← takeWhile1 isDigit
  return if sign = some '-' then -(ofDigits digits : Int) else ofDigits digits

/-- An integer if it has 64 bits, with the negative zero apart; else the nearest double. -/
def ofInteger (negative : Bool) (n : Nat) : Json :=
  if negative then
    if n = 0 then .float .negativeZero
    else if n ≤ 0x8000000000000000 then .integer (-n)
    else .float (.ofDecimal true ⟨n, 0⟩)
  else if n < 0x10000000000000000 then .integer n
  else .float (.ofDecimal false ⟨n, 0⟩)

/--
A number; one beyond the range of double precision is refused. One with places or a power is rounded
once, whatever its length, so it is the nearest double. A reader that rounds the digits first and
then multiplies or divides by the power of ten may give a neighbour of that double: for
`0.11999999731779099` it gives `0.119999997317791`.
-/
def number : Parser Json := do
  let sign ← option (char '-')
  let negative := sign.isSome
  let whole ← wholeDigits
  let fraction ← option (char '.' *> takeWhile1 isDigit)
  let power ← option exponent
  let value :=
    if fraction.isNone && power.isNone then ofInteger negative (ofDigits whole)
    else
      let places := fraction.getD []
      .float (.ofDecimal negative ⟨ofDigits (whole ++ places), power.getD 0 - places.length⟩)
  match value with
  | .float x => if x.isFinite then pure value else failure
  | _ => pure value

/-! ### Values -/

/-- A value without parts. -/
def scalar : Parser Json :=
  (Json.string <$> stringLiteral) <|> number
    <|> (text ['t', 'r', 'u', 'e'] *> pure (.bool true))
    <|> (text ['f', 'a', 'l', 's', 'e'] *> pure (.bool false))
    <|> (text ['n', 'u', 'l', 'l'] *> pure .null)

/-- Parts between brackets, separated by commas. -/
def enclosed {α : Type} (opening closing : Char) (part : Parser α) : Parser (List α) := do
  char opening
  blanks
  let parts ← option (sepBy1 (part <* blanks) (char ',' *> blanks))
  char closing
  return parts.getD []

/-- A value in which lists and objects are nested at most `depth` deep. -/
def value : Nat → Parser Json
  | 0 => scalar
  | depth + 1 =>
    (Json.array <$> enclosed '[' ']' (value depth))
      <|> (ofFields <$> enclosed '\x7b' '\x7d' (do
            let name ← stringLiteral
            blanks
            char ':'
            blanks
            return (name, ← value depth)))
      <|> scalar

/-- Lists and objects may be nested this deep. -/
def nestingLimit : Nat := 127

/-- The value that a text holds, if it is JSON and nothing else. -/
def read? (s : String) : Option Json :=
  (blanks *> value nestingLimit <* blanks).run s.toList

end Handoff.Json
