import Handoff.Binary64.Decimal

/-!
# Layouts of numbers

How the shortest digits of a number are laid out as text. A `NumberLayout`
holds the decisions of one format: the exponents that are written out in
places, what follows a whole number, and the texts of infinity. The formats in
use are `NumberLayout.plain`, which never has an exponent, and the one of JSON,
which the JSON printer defines.
-/

namespace Handoff

/-- The decisions of a number format. -/
structure NumberLayout where
  /-- Exponents of the first digit that are written out in places. -/
  isPositional : Int → Bool
  /-- What follows the digits of a whole number written out in places. -/
  wholeEnding : List Char
  /-- Which of two equally near digit strings is taken. -/
  tie : TieRule
  /-- The text of infinity, without its sign. -/
  infinity : List Char
  /-- The text of no number. -/
  notANumber : List Char

namespace NumberLayout

/-- The digits with a point after place `exponent`, counted from the first digit. -/
def positional (layout : NumberLayout) (digits : List Char) (exponent : Int) : List Char :=
  if exponent < 0 then
    ['0', '.'] ++ List.replicate (-exponent - 1).toNat '0' ++ digits
  else
    let whole := exponent.toNat + 1
    if digits.length ≤ whole then
      digits ++ List.replicate (whole - digits.length) '0' ++ layout.wholeEnding
    else digits.take whole ++ ['.'] ++ digits.drop whole

/-- The digits with a point after the first, and the power of ten it counts. -/
def scientific (digits : List Char) (exponent : Int) : List Char :=
  let mantissa := match digits with
    | first :: second :: more => first :: '.' :: second :: more
    | short => short
  mantissa ++ ['e', if exponent < 0 then '-' else '+'] ++ Nat.toDigits 10 exponent.natAbs

/-- The text of a positive rational. -/
def magnitude (layout : NumberLayout) (q : Rat) : List Char :=
  let d := Decimal.shortest layout.tie q
  if layout.isPositional d.leadingExponent then layout.positional d.digits d.leadingExponent
  else scientific d.digits d.leadingExponent

/-- The text of a number. -/
def text (layout : NumberLayout) : Binary64 → List Char
  | .finite q _ =>
    if q = 0 then '0' :: layout.wholeEnding
    else if q < 0 then '-' :: layout.magnitude (-q)
    else layout.magnitude q
  | .negativeZero => '-' :: '0' :: layout.wholeEnding
  | .infinite negative => if negative then '-' :: layout.infinity else layout.infinity
  | .nan => layout.notANumber

/-- All places are written out, and a whole number ends with its last digit. -/
def plain : NumberLayout where
  isPositional _ := true
  wholeEnding := []
  tie := .up
  infinity := ['i', 'n', 'f']
  notANumber := ['N', 'a', 'N']

end NumberLayout

/-! ### Quantities -/

namespace Binary64

/-- The integer that a whole number below `10 ^ 15` in magnitude is written as. -/
def asInteger? (x : Binary64) : Option Int :=
  match x.toInt? with
  | some n => if n.natAbs < 1000000000000000 then some n else none
  | none => none

/--
A quantity as it stands in names and generated source: an integer where it is whole, and otherwise
rounded to thousandths.
-/
def quantity (x : Binary64) : String :=
  match x.asInteger? with
  | some n => n.repr
  | none => .ofList (NumberLayout.plain.text ((x * 1000).roundToWhole / 1000))

end Binary64

end Handoff
