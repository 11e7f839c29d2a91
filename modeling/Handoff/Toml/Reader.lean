import Handoff.Text.Basic
import Handoff.Text.Parser
import Handoff.Toml.Basic

/-!
# Reading TOML

A reader of TOML 1.0 documents. Lists and tables in braces may be nested to a
limit, and so may the keys of a path.
-/

namespace Handoff.Toml

open Handoff.Parser

/-! ### Blanks and comments -/

/-- Whether a character is a blank inside a line. -/
def isSpace (c : Char) : Bool := c = ' ' || c = '\t'

/-- Blanks inside a line. -/
def spaces : Parser Unit := do
  let _ ← takeWhile isSpace

/-- The end of a line. -/
def newline : Parser Unit := char '\n' <|> text ['\r', '\n']

/-- Whether a character may stand in a comment. -/
def isCommentChar (c : Char) : Bool := c = '\t' || (' ' ≤ c && c ≠ '\x7f')

/-- A comment up to the end of its line. -/
def comment : Parser Unit := do
  char '#'
  let _ ← takeWhile isCommentChar

/-- What may follow a statement on its line. -/
def lineEnd : Parser Unit := do
  spaces
  let _ ← option comment
  newline <|> atEnd

/-- Blanks, comments and line ends inside a list. -/
def gap : Parser Unit := do
  let _ ← many ((do let _ ← takeWhile1 isSpace) <|> newline <|> (comment *> newline))

/-! ### Texts -/

/-- The character that so many hexadecimal digits stand for. -/
def codePoint (count : Nat) : Parser Char := do
  let n ← lift (Text.hexNumber? (← take count))
  if n < 0xD800 ∨ (0xE000 ≤ n ∧ n < 0x110000) then pure (Char.ofNat n) else failure

/-- The character after a backslash. -/
def escaped : Parser Char := do
  let c ← satisfy fun _ => true
  match c with
  | '"' | '\\' => pure c
  | 'b' => pure '\x08'
  | 't' => pure '\t'
  | 'n' => pure '\n'
  | 'f' => pure '\x0c'
  | 'r' => pure '\r'
  | 'u' => codePoint 4
  | 'U' => codePoint 8
  | _ => failure

/-- Whether a character stands for itself between double quotes. -/
def isBasicChar (c : Char) : Bool := isCommentChar c && c ≠ '"' && c ≠ '\\'

/-- Whether a character stands for itself between single quotes. -/
def isLiteralChar (c : Char) : Bool := isCommentChar c && c ≠ '\''

/-- A text between double quotes on one line. -/
def basicString : Parser String := do
  char '"'
  let cs ← many (satisfy isBasicChar <|> (char '\\' *> escaped))
  char '"'
  return .ofList cs

/-- A text between single quotes on one line. -/
def literalString : Parser String := do
  char '\''
  let cs ← takeWhile isLiteralChar
  char '\''
  return .ofList cs

/-- One or two quotes that do not end a text over several lines, as text. -/
def innerQuotes (quote : Char) : Parser (List Char) := do
  let quotes ← takeWhile1 (· = quote)
  if quotes.length ≤ 2 then pure quotes else failure

/--
The three quotes at the end of a text over several lines, after up to two quotes that belong to it.
-/
def closingQuotes (quote : Char) : Parser (List Char) := do
  let quotes ← takeWhile1 (· = quote)
  if 3 ≤ quotes.length ∧ quotes.length ≤ 5 then pure (quotes.drop 3) else failure

/-- A backslash at the end of a line, which joins it to the text that follows. -/
def joinedLines : Parser (List Char) := do
  char '\\'
  spaces
  newline
  let _ ← many (newline <|> (do let _ ← takeWhile1 isSpace))
  return []

/-- A text between triple quotes, made of the pieces given. The first line end is not part of it. -/
def multiline (quote : Char) (piece : Parser (List Char)) : Parser String := do
  text [quote, quote, quote]
  let _ ← option newline
  let pieces ← many (piece <|> (newline *> pure ['\n']) <|> innerQuotes quote)
  let last ← closingQuotes quote
  return .ofList (pieces.flatten ++ last)

/-- A text between triple double quotes. -/
def multilineBasicString : Parser String :=
  multiline '"'
    (takeWhile1 isBasicChar <|> joinedLines <|> (char '\\' *> do return [← escaped]))

/-- A text between triple single quotes. -/
def multilineLiteralString : Parser String := multiline '\'' (takeWhile1 isLiteralChar)

/-- A text in any of the four forms. -/
def anyString : Parser String :=
  multilineBasicString <|> basicString <|> multilineLiteralString <|> literalString

/-! ### Keys -/

/-- Whether a character may stand in a key without quotes. -/
def isKeyChar (c : Char) : Bool := c.isAlphanum || c = '-' || c = '_'

/-- A key, in quotes or not. -/
def simpleKey : Parser String :=
  basicString <|> literalString <|> (String.ofList <$> takeWhile1 isKeyChar)

/-- A path has fewer keys, and values are nested less deep, than this. -/
def depthLimit : Nat := 80

/-- A path of keys with points between them. -/
def keyPath : Parser KeyPath := do
  let keys ← sepBy1 (spaces *> simpleKey <* spaces) (char '.')
  if depthLimit ≤ keys.length then failure
  else match keys.reverse with
    | last :: before => pure ⟨before.reverse, last⟩
    | [] => failure

/-! ### Numbers -/

/-- Digits, with single underscores between them. -/
def digitGroups (isDigit : Char → Bool) : Parser (List Char) := do
  let first ← satisfy isDigit
  let more ← many (satisfy isDigit <|> (char '_' *> satisfy isDigit))
  return first :: more

/-- Decimal digits that do not start with a zero unless it is alone. -/
def wholeDigits : Parser (List Char) :=
  (char '0' *> pure ['0']) <|> digitGroups isDigit

/-- A sign, if there is one; whether it is a minus sign. -/
def sign : Parser Bool := do
  let c ← option (satisfy fun c => c = '+' || c = '-')
  return c = some '-'

/-- An integer of 64 bits. -/
def ofInteger (n : Int) : Parser Toml :=
  if -0x8000000000000000 ≤ n ∧ n < 0x8000000000000000 then pure (.integer n) else failure

/-- An integer in a base other than ten, after its mark. -/
def basedInteger (mark : Char) (base : Nat) : Parser Toml := do
  text ['0', mark]
  let digits ← digitGroups fun c => (Text.hexDigit? c).any (· < base)
  ofInteger (digits.foldl (fun n c => n * base + (Text.hexDigit? c).getD 0) 0)

/-- An integer in base ten. -/
def decimalInteger : Parser Toml := do
  let negative ← sign
  let n : Int := ofDigits (← wholeDigits)
  ofInteger (if negative then -n else n)

/-- The exponent of a number, after its letter. -/
def exponent : Parser Int := do
  let _ ← satisfy fun c => c = 'e' || c = 'E'
  let negative ← sign
  let n : Int := ofDigits (← digitGroups isDigit)
  return if negative then -n else n

/-- A number with a point or an exponent. One that is too large is refused. -/
def decimalFloat : Parser Toml := do
  let negative ← sign
  let whole ← wholeDigits
  let fraction ← option (char '.' *> digitGroups isDigit)
  let power ← option exponent
  if fraction.isNone && power.isNone then failure
  else
    let places := fraction.getD []
    let d : Decimal := ⟨ofDigits (whole ++ places), power.getD 0 - places.length⟩
    let x := Binary64.ofDecimal negative d
    if x = .infinite false then failure else pure (.float x)

/-- Infinity, or no number. -/
def specialFloat : Parser Toml := do
  let negative ← sign
  (text ['i', 'n', 'f'] *> pure (.float (.infinite negative)))
    <|> (text ['n', 'a', 'n'] *> pure (.float .nan))

/-! ### Dates and times -/

/-- A number of so many digits that lies between the bounds. -/
def bounded (digits lower upper : Nat) : Parser Nat := do
  let cs ← take digits
  let n := ofDigits cs
  if cs.all isDigit && lower ≤ n && n ≤ upper then pure n else failure

/-- The number of days of a month. -/
def daysInMonth (year month : Nat) : Nat :=
  if month = 2 then
    if year % 4 = 0 ∧ (year % 100 ≠ 0 ∨ year % 400 = 0) then 29 else 28
  else if month = 4 ∨ month = 6 ∨ month = 9 ∨ month = 11 then 30
  else 31

/-- A date. -/
def date : Parser Unit := do
  let year ← bounded 4 0 9999
  char '-'
  let month ← bounded 2 1 12
  char '-'
  let _ ← bounded 2 1 (daysInMonth year month)

/-- A time of day; a minute may have a second 60. -/
def time : Parser Unit := do
  let _ ← bounded 2 0 23
  char ':'
  let _ ← bounded 2 0 59
  char ':'
  let _ ← bounded 2 0 60
  let _ ← option (char '.' *> takeWhile1 isDigit)

/-- The distance from universal time. -/
def zone : Parser Unit := do
  let c ← satisfy fun c => c = 'Z' || c = 'z' || c = '+' || c = '-'
  if c = 'Z' ∨ c = 'z' then pure ()
  else
    let _ ← bounded 2 0 23
    char ':'
    let _ ← bounded 2 0 59

/-- A date, a date with a time, or a time. -/
def dateOrTime : Parser Toml := do
  (do
    date
    let _ ← option do
      let _ ← satisfy fun c => c = 'T' || c = 't' || c = ' '
      time
      let _ ← option zone) <|> time
  return .dateTime

/-! ### Values -/

/-- A value without parts. -/
def scalar : Parser Toml :=
  (Toml.string <$> anyString)
    <|> (text ['t', 'r', 'u', 'e'] *> pure (.bool true))
    <|> (text ['f', 'a', 'l', 's', 'e'] *> pure (.bool false))
    <|> dateOrTime <|> decimalFloat <|> specialFloat
    <|> basedInteger 'x' 16 <|> basedInteger 'o' 8 <|> basedInteger 'b' 2 <|> decimalInteger

/-- A list of values. -/
def list (value : Parser Toml) : Parser Toml := do
  char '['
  gap
  let items ← option (sepBy1 (value <* gap) (char ',' *> gap))
  if items.isSome then
    let _ ← option (char ',')
  gap
  char ']'
  return .array (items.getD [])

/-- A key with its value. -/
def entry (value : Parser Toml) : Parser (KeyPath × Toml) := do
  let key ← keyPath
  char '='
  spaces
  return (key, ← value)

/-- A table in braces. -/
def braces (value : Parser Toml) : Parser Toml := do
  char '\x7b'
  spaces
  let entries ← option (sepBy1 (entry value <* spaces) (char ',' *> spaces))
  char '\x7d'
  lift (ofBraces (entries.getD []))

/-- A value in which lists and tables are nested at most `depth` deep. -/
def value : Nat → Parser Toml
  | 0 => scalar
  | depth + 1 => list (value depth) <|> braces (value depth) <|> scalar

/-! ### Documents -/

/-- A statement with the rest of its line. -/
def statement : Parser Statement :=
  ((do
    text ['[', '[']
    let key ← keyPath
    text [']', ']']
    return .item key)
  <|> (do
    char '['
    let key ← keyPath
    char ']'
    return .table key)
  <|> (do
    let (key, v) ← entry (value (depthLimit - 1))
    return .entry key v)) <* lineEnd

/-- A line without a statement. -/
def emptyLine : Parser Unit := newline <|> (comment *> (newline <|> atEnd))

/-- All statements of a document. -/
def statements : Parser (List Statement) := do
  let _ ← option (char '\ufeff')
  spaces
  let lines ← many (((some <$> statement) <|> (emptyLine *> pure none)) <* spaces)
  return lines.filterMap fun line => line

/-- The document that a text holds, if it is TOML. -/
def read? (s : String) : Option Document :=
  (statements.run s.toList).bind Document.ofStatements

end Handoff.Toml
