import Handoff.Binary64.Basic

/-!
# Decimal numerals

A decimal is an integer significand with a power of ten. `Binary64.ofDecimal`
reads one as the nearest number, and `Decimal.shortest` finds the fewest digits
from which a number can be read back, which is how numbers are printed.
-/

namespace Handoff

/-- The number `significand * 10 ^ exponent`. -/
structure Decimal where
  /-- The digits, read as one integer. -/
  significand : Nat
  /-- The power of ten the last digit counts. -/
  exponent : Int
  deriving DecidableEq, Repr

namespace Decimal

/-- The rational a decimal stands for. -/
def toRat (d : Decimal) : Rat := (d.significand : Rat) * (10 : Rat) ^ d.exponent

/-- The digits of the significand, most significant first. -/
def digits (d : Decimal) : List Char := Nat.toDigits 10 d.significand

/-- The power of ten that the first digit counts. -/
def leadingExponent (d : Decimal) : Int := d.exponent + d.digits.length - 1

end Decimal

/-! ### Reading -/

/--
The number nearest to a decimal with the given sign. Magnitudes of `10 ^ 310` and more are infinite
and those below `10 ^ -330` are zero whatever their digits, so no huge power of ten is computed.
-/
def Binary64.ofDecimal (negative : Bool) (d : Decimal) : Binary64 :=
  let zero : Binary64 := if negative then .negativeZero else 0
  if d.significand = 0 then zero
  else if 310 ≤ d.leadingExponent then .infinite negative
  else if d.leadingExponent < -330 then zero
  else .round negative (if negative then -d.toRat else d.toRat)

/-! ### Writing -/

/-- What to do with a number that lies in the middle between two decimals of the same length. -/
inductive TieRule where
  /-- Take the one whose last digit is even. -/
  | toEven
  /-- Take the greater one. -/
  | up
  deriving DecidableEq, Repr

namespace Decimal

/-- The exponent of the greatest power of ten that is at most `q`, for `q` above zero. -/
def leadingPower (q : Rat) : Int :=
  let estimate : Int := (Rounding.leadingExponent q * 30103) / 100000
  if (10 : Rat) ^ (estimate + 1) ≤ q then estimate + 1
  else if (10 : Rat) ^ estimate ≤ q then estimate
  else estimate - 1

/-- The decimal without its final zeros, of which at most `limit` are taken off. -/
def trimZeros : Nat → Decimal → Decimal
  | 0, d => d
  | limit + 1, d =>
    if d.significand ≠ 0 ∧ d.significand % 10 = 0 then
      trimZeros limit ⟨d.significand / 10, d.exponent + 1⟩
    else d

/--
The neighbours of `q` among the multiples of `10 ^ exponent`, the nearer one first; of two at the
same distance the one that `tie` prefers. A multiple has no neighbour but itself.
-/
def neighbours (tie : TieRule) (q : Rat) (exponent : Int) : List Decimal :=
  let scaled := q / (10 : Rat) ^ exponent
  let below := scaled.floor.toNat
  let excess := scaled - scaled.floor
  let lower : Decimal := ⟨below, exponent⟩
  let upper : Decimal := ⟨below + 1, exponent⟩
  let lowerFirst := excess < 1 / 2 ∨ (excess = 1 / 2 ∧ tie = .toEven ∧ below % 2 = 0)
  if excess = 0 then [lower]
  else if lowerFirst then [lower, upper]
  else [upper, lower]

/-- The decimal with all the digits of `q`, for a `q` whose denominator is a power of two. -/
def exact (q : Rat) : Decimal :=
  let places := q.den.log2
  trimZeros places ⟨(q * (10 : Rat) ^ places).floor.toNat, -places⟩

/--
The decimal of fewest digits that rounds to `q`, for a representable `q` above zero, and of these
the nearest to `q`. Seventeen digits always suffice.
-/
def shortest (tie : TieRule) (q : Rat) : Decimal :=
  let lead := leadingPower q
  let found := (List.range 17).findSome? fun (more : Nat) =>
    (neighbours tie q (lead - more)).find? fun d =>
      decide (d.significand ≠ 0 ∧ Rounding.nearest d.toRat = q)
  match found with
  | some d => trimZeros 1 d
  | none => exact q

end Decimal

end Handoff
