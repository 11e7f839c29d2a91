/-!
# Parsers

A parser takes a text and gives a result with the text that is left, or fails.
Repetition is bounded by the text itself: every round uses up one of its
characters as budget, which is enough because a round that succeeds consumes at
least one character.
-/

namespace Handoff

/-- A function from a text to a result and the text left over; it may fail. -/
abbrev Parser (α : Type) := StateT (List Char) Option α

namespace Parser

variable {α : Type}

/-- The next character if it satisfies `p`. -/
def satisfy (p : Char → Bool) : Parser Char
  | [] => none
  | c :: rest => if p c then some (c, rest) else none

/-- The character `c` itself. -/
def char (c : Char) : Parser Unit
  | [] => none
  | d :: rest => if d = c then some ((), rest) else none

/-- The text `expected` itself. -/
def text (expected : List Char) : Parser Unit := fun s =>
  if expected.isPrefixOf s then some ((), s.drop expected.length) else none

/-- The characters up to the first that does not satisfy `p`. -/
def takeWhile (p : Char → Bool) : Parser (List Char) := fun s => some (s.takeWhile p, s.dropWhile p)

/-- At least one character that satisfies `p`, and all that follow. -/
def takeWhile1 (p : Char → Bool) : Parser (List Char) := fun s =>
  match s.takeWhile p with
  | [] => none
  | taken => some (taken, s.dropWhile p)

/-- The next `count` characters. -/
def take : Nat → Parser (List Char)
  | 0, s => some ([], s)
  | _ + 1, [] => none
  | count + 1, c :: rest => (take count rest).map fun (taken, left) => (c :: taken, left)

/-- Nothing, provided that no text is left. -/
def atEnd : Parser Unit
  | [] => some ((), [])
  | _ :: _ => none

/-- Nothing, provided that what follows satisfies `p`. -/
def look (p : List Char → Bool) : Parser Unit := fun s => if p s then some ((), s) else none

/-- What `p` reads, or `none` without reading anything where `p` fails. -/
def option (p : Parser α) : Parser (Option α) := fun s =>
  match p s with
  | some (a, rest) => some (some a, rest)
  | none => some (none, s)

/-- A value that is there. -/
def lift (a : Option α) : Parser α := fun s => a.map (·, s)

/-- Repeats `p` as long as it succeeds, at most once for each character of the budget. -/
def manyWithin (p : Parser α) : List Char → List α → Parser (List α)
  | [], read => fun s => some (read.reverse, s)
  | _ :: budget, read => fun s =>
    match p s with
    | some (a, rest) => manyWithin p budget (a :: read) rest
    | none => some (read.reverse, s)

/-- Repeats `p` as long as it succeeds. -/
def many (p : Parser α) : Parser (List α) := fun s => manyWithin p s [] s

/-- One or more of `p`, with `separator` between two of them. -/
def sepBy1 (p : Parser α) (separator : Parser Unit) : Parser (List α) := do
  let first ← p
  let more ← many (separator *> p)
  return first :: more

/-- The result of a parser that reads the whole text. -/
def run (p : Parser α) (s : List Char) : Option α :=
  match p s with
  | some (a, []) => some a
  | _ => none

/-! ### Digits -/

/-- Whether a character is an ASCII digit. -/
def isDigit (c : Char) : Bool := '0' ≤ c && c ≤ '9'

/-- The number that decimal digits stand for. -/
def ofDigits (digits : List Char) : Nat :=
  digits.foldl (fun value c => value * 10 + (c.toNat - '0'.toNat)) 0

end Parser

end Handoff
