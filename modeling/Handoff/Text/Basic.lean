/-!
# Text

What is done with lists of characters in many places: a character is looked up in a
property of the Unicode standard, which is kept as a table of ranges; blanks divide
words and do not count at the ends of a text; one text is searched for in another,
and a text is divided at a separator; hexadecimal digits stand for numbers and
octets.

The larger tables of the standard have modules of their own.
-/

namespace Handoff.Text

/-! ### Sets of code points -/

/-- Ranges of code points, first and last, in ascending order. -/
abbrev CodePoints := List (Nat × Nat)

/-- Whether a code point lies in one of the ranges. The search ends at the first range beyond it. -/
def CodePoints.contains (code : Nat) : CodePoints → Bool
  | [] => false
  | (first, last) :: more =>
    if code < first then false else if code ≤ last then true else CodePoints.contains code more

/-! ### Blanks -/

/-- The code points with the Unicode property White_Space. -/
def blankRanges : CodePoints := [
    (0x9, 0xd), (0x20, 0x20), (0x85, 0x85), (0xa0, 0xa0), (0x1680, 0x1680), (0x2000, 0x200a),
    (0x2028, 0x2029), (0x202f, 0x202f), (0x205f, 0x205f), (0x3000, 0x3000)]

/-- Whether a character is white space. -/
def isBlank (c : Char) : Bool := blankRanges.contains c.toNat

/-- The text without the blanks at its two ends. -/
def trim (s : List Char) : List Char :=
  ((s.dropWhile isBlank).reverse.dropWhile isBlank).reverse

/-- The words between blanks, none of them empty. -/
def words (s : List Char) : List (List Char) :=
  (s.splitOnP isBlank).filter fun word => !word.isEmpty

/-! ### Searching -/

/-- Whether `needle` occurs in the text. -/
def occurs (needle : List Char) : List Char → Bool
  | [] => needle.isEmpty
  | c :: rest => needle.isPrefixOf (c :: rest) || occurs needle rest

/-- What follows `start` if the text begins with it. -/
def after? (start s : List Char) : Option (List Char) :=
  if start.isPrefixOf s then some (s.drop start.length) else none

/-- The text before the first `c`; all of it if there is none. -/
def before (c : Char) (s : List Char) : List Char := s.takeWhile (· ≠ c)

/-- The text after the first `c`; nothing if there is none. -/
def behind (c : Char) (s : List Char) : List Char := (s.dropWhile (· ≠ c)).drop 1

/-- The text with every `old` replaced by `new`. -/
def replace (old new : Char) (s : List Char) : List Char :=
  s.map fun c => if c = old then new else c

/-! ### Hexadecimal digits -/

/-- The value of a hexadecimal digit. -/
def hexDigit? (c : Char) : Option Nat :=
  if '0' ≤ c ∧ c ≤ '9' then some (c.toNat - '0'.toNat)
  else if 'a' ≤ c ∧ c ≤ 'f' then some (c.toNat - 'a'.toNat + 10)
  else if 'A' ≤ c ∧ c ≤ 'F' then some (c.toNat - 'A'.toNat + 10)
  else none

/-- The number that hexadecimal digits stand for, most significant first. -/
def hexNumber? (digits : List Char) : Option Nat :=
  digits.foldlM (fun value c => (hexDigit? c).map (value * 16 + ·)) 0

/-- The uppercase digit of a value below sixteen. -/
def upperHexDigit (n : Nat) : Char :=
  if n < 10 then Char.ofNat ('0'.toNat + n) else Char.ofNat ('A'.toNat + (n - 10))

/-- The lowercase digit of a value below sixteen. -/
def lowerHexDigit (n : Nat) : Char :=
  if n < 10 then Char.ofNat ('0'.toNat + n) else Char.ofNat ('a'.toNat + (n - 10))

/-- The two uppercase digits of an octet. -/
def upperHexOctet (b : UInt8) : List Char :=
  [upperHexDigit (b.toNat / 16), upperHexDigit (b.toNat % 16)]

end Handoff.Text
