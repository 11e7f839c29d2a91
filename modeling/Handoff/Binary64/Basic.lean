/-!
# Double precision numbers

`Binary64` holds the numbers of the IEEE 754 binary64 format by what they mean:
a finite number is a rational that rounding leaves as it is, and zero has a
second, negative form. An operation is the exact operation on rationals
followed by one rounding, so every result is known exactly.

There are two ways in which a quotient becomes an integer, and the binary rounding
is built on the first: `Rounding.nearest` takes a rational to the closest number with
53 significant bits whose last bit is worth at least `2 ^ -1074`.
-/

namespace Handoff

/-! ### Rounding rational numbers -/

namespace Rounding

/-- The integer nearest to `q`; a half goes to the even neighbour. -/
def halfEven (q : Rat) : Int :=
  let below := q.floor
  let excess := q - below
  if excess < 1 / 2 then below
  else if 1 / 2 < excess then below + 1
  else if below % 2 = 0 then below
  else below + 1

/-- The integer nearest to `q`; a half goes away from zero. -/
def halfAway (q : Rat) : Int :=
  if q < 0 then -(-q + 1 / 2).floor else (q + 1 / 2).floor

/-- The exponent of the greatest power of two that is at most `|q|`, for `q` other than zero. -/
def leadingExponent (q : Rat) : Int :=
  let estimate : Int := (q.num.natAbs.log2 : Int) - (q.den.log2 : Int)
  if (2 : Rat) ^ estimate ≤ q.abs then estimate else estimate - 1

/-- The exponent of the last significant bit of `q`: 53 bits, none below `2 ^ -1074`. -/
def lastExponent (q : Rat) : Int := max (leadingExponent q - 52) (-1074)

/-- The multiple of `q`'s last significant bit that is nearest to `q`, ties to even. -/
def nearest (q : Rat) : Rat :=
  if q = 0 then 0
  else
    let unit := (2 : Rat) ^ lastExponent q
    (halfEven (q / unit) : Rat) * unit

end Rounding

/-! ### Numbers -/

/-- Finite numbers are smaller than this in magnitude. -/
def Binary64.bound : Rat := (2 : Rat) ^ (1024 : Int)

/--
A rational is a finite binary64 number when it has at most 53 significant bits and is in range.
-/
def Representable (q : Rat) : Prop := Rounding.nearest q = q ∧ q.abs < Binary64.bound

instance (q : Rat) : Decidable (Representable q) := inferInstanceAs (Decidable (_ ∧ _))

/-- A number of the IEEE 754 binary64 format. -/
inductive Binary64 where
  /-- A finite number other than the negative zero. -/
  | finite (value : Rat) (representable : Representable value)
  /-- The zero that carries a minus sign. -/
  | negativeZero
  /-- A magnitude too large for the format. -/
  | infinite (negative : Bool)
  /-- No number at all. -/
  | nan
  deriving DecidableEq

namespace Binary64

/-- Whether the number carries a minus sign. -/
def isNegative : Binary64 → Bool
  | finite q _ => q < 0
  | negativeZero => true
  | infinite negative => negative
  | nan => false

/-- The rational a finite number stands for. -/
def toRat? : Binary64 → Option Rat
  | finite q _ => some q
  | negativeZero => some 0
  | infinite _ | nan => none

/-- Whether the number is neither infinite nor no number. -/
def isFinite (x : Binary64) : Bool := x.toRat?.isSome

/--
The number nearest to `q`. A result of zero takes the sign given; one out of range is infinite.
-/
def round (negative : Bool) (q : Rat) : Binary64 :=
  let r := Rounding.nearest q
  if r = 0 ∧ negative then .negativeZero
  else if h : Representable r then .finite r h
  else .infinite (r < 0)

/-- The number nearest to an integer. -/
def ofInt (n : Int) : Binary64 := round false n

instance (n : Nat) : OfNat Binary64 n := ⟨ofInt n⟩

/-- A decimal literal is read correctly rounded. -/
instance : OfScientific Binary64 where
  ofScientific mantissa negativeExponent exponent :=
    round false (if negativeExponent then (mantissa : Rat) / (10 : Rat) ^ exponent
      else (mantissa : Rat) * (10 : Rat) ^ exponent)

instance : Inhabited Binary64 := ⟨0⟩

/-! ### Order -/

/-- Strictly less, as numbers: the two zeros are equal, and no number compares with `nan`. -/
def lt : Binary64 → Binary64 → Bool
  | nan, _ | _, nan => false
  | infinite s, infinite t => s && !t
  | infinite s, _ => s
  | _, infinite t => !t
  | x, y => x.toRat?.getD 0 < y.toRat?.getD 0

/-- Equal as numbers: the two zeros are equal, and `nan` equals nothing. -/
def equals : Binary64 → Binary64 → Bool
  | nan, _ | _, nan => false
  | infinite s, infinite t => s == t
  | infinite _, _ | _, infinite _ => false
  | x, y => x.toRat?.getD 0 == y.toRat?.getD 0

instance : LT Binary64 := ⟨fun x y => x.lt y = true⟩
instance : LE Binary64 := ⟨fun x y => (x.lt y || x.equals y) = true⟩
instance (x y : Binary64) : Decidable (x < y) := inferInstanceAs (Decidable (_ = true))
instance (x y : Binary64) : Decidable (x ≤ y) := inferInstanceAs (Decidable (_ = true))

/-- The number with the negative zero taken for the other one: equal numbers become one value. -/
def unsignedZero : Binary64 → Binary64
  | negativeZero => 0
  | x => x

/-- The number if it lies between the bounds, else the bound it lies beyond. -/
def clamp (x lower upper : Binary64) : Binary64 :=
  if x < lower then lower else if upper < x then upper else x

/-- Whether two finite numbers differ by less than `tolerance`. -/
def within (tolerance : Rat) (x y : Binary64) : Bool :=
  match x.toRat?, y.toRat? with
  | some p, some q => (p - q).abs < tolerance
  | _, _ => false

/-! ### Arithmetic -/

/-- The product, rounded. -/
def mul (x y : Binary64) : Binary64 :=
  let negative := x.isNegative != y.isNegative
  match x.toRat?, y.toRat? with
  | some p, some q => round negative (p * q)
  | _, _ =>
    if x = nan ∨ y = nan ∨ x.toRat? = some 0 ∨ y.toRat? = some 0 then nan
    else .infinite negative

/-- The quotient, rounded. -/
def div (x y : Binary64) : Binary64 :=
  let negative := x.isNegative != y.isNegative
  match x.toRat?, y.toRat? with
  | some p, some q =>
    if q = 0 then (if p = 0 then nan else .infinite negative) else round negative (p / q)
  | some _, none => if y = nan then nan else round negative 0
  | none, some _ => if x = nan then nan else .infinite negative
  | none, none => nan

instance : Mul Binary64 := ⟨mul⟩
instance : Div Binary64 := ⟨div⟩

/-! ### Integers -/

/-- The integer a number is equal to, if it is equal to one. -/
def toInt? (x : Binary64) : Option Int :=
  match x.toRat? with
  | some q => if q.den = 1 then some q.num else none
  | none => none

/-- The nearest whole number, a half going away from zero; the sign stays. -/
def roundToWhole (x : Binary64) : Binary64 :=
  match x.toRat? with
  | some q => round x.isNegative (Rounding.halfAway q)
  | none => x

/-- The integer part of a number, taken into the range from `0` to `limit`. -/
def toNatUpTo (limit : Nat) : Binary64 → Nat
  | finite q _ => min q.floor.toNat limit
  | negativeZero | nan => 0
  | infinite negative => if negative then 0 else limit

end Binary64

end Handoff
