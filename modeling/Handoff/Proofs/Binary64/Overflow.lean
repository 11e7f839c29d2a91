import Handoff.Proofs.Binary64.Rounding

/-!
# What rounding takes out of the range

The greatest finite number has 53 ones for its bits. What is less than half of a
last bit above it is rounded to it, and what is half of one above it is rounded to
the even neighbour, which is out of range. So a number is rounded to a finite one
exactly when its magnitude is below `overflow` (`Binary64.isFinite_round_iff`), and
the product of finite numbers is finite exactly when that of the rationals is
below it (`Binary64.isFinite_mul_iff`). Rounding treats both signs alike
(`nearest_neg`).
-/

namespace Handoff

namespace Rounding

/-! ### Signs -/

theorem halfEven_of_lt {q : Rat} (h : q - ⌊q⌋ < 1 / 2) : halfEven q = ⌊q⌋ := if_pos h

theorem halfEven_of_gt {q : Rat} (h : 1 / 2 < q - ⌊q⌋) : halfEven q = ⌊q⌋ + 1 := by
  rw [halfEven]
  exact (if_neg h.not_gt).trans (if_pos h)

/-- A half goes to the even neighbour. -/
theorem halfEven_half (n : Int) : halfEven (n + 1 / 2) = if n % 2 = 0 then n else n + 1 := by
  have hfloor : (n + 1 / 2 : Rat).floor = n := by
    change ⌊(n + 1 / 2 : Rat)⌋ = n
    rw [Int.floor_eq_iff]
    constructor <;> linarith
  rw [halfEven, hfloor, add_sub_cancel_left]
  exact (if_neg (lt_irrefl _)).trans (if_neg (lt_irrefl _))

theorem halfEven_neg (q : Rat) : halfEven (-q) = -halfEven q := by
  have hle := Int.floor_le q
  have hlt := Int.lt_floor_add_one q
  rcases lt_trichotomy (q - ⌊q⌋) (1 / 2) with h | h | h
  · rw [halfEven_of_lt h]
    rcases hle.eq_or_lt with hint | hfrac
    · rw [← hint, ← Int.cast_neg, halfEven_intCast, Int.floor_intCast]
    · have hfloor : ⌊-q⌋ = -⌊q⌋ - 1 := by
        rw [Int.floor_eq_iff]
        push_cast
        constructor <;> linarith
      rw [halfEven_of_gt (by rw [hfloor]; push_cast; linarith), hfloor]
      ring
  · have hq : q = ⌊q⌋ + 1 / 2 := by linarith
    have hneg : -q = ((-⌊q⌋ - 1 : Int) : Rat) + 1 / 2 := by
      push_cast
      linarith
    rw [hneg, halfEven_half]
    conv_rhs => rw [hq, halfEven_half]
    split_ifs <;> omega
  · have hfloor : ⌊-q⌋ = -⌊q⌋ - 1 := by
      rw [Int.floor_eq_iff]
      push_cast
      constructor <;> linarith
    rw [halfEven_of_gt h, halfEven_of_lt (by rw [hfloor]; push_cast; linarith), hfloor]
    ring

theorem leadingExponent_neg (q : Rat) : leadingExponent (-q) = leadingExponent q := by
  have habs : (-q).abs = q.abs := by rw [abs_eq_abs, abs_eq_abs, abs_neg]
  rw [leadingExponent, leadingExponent, habs, Rat.num_neg_eq_neg_num, Int.natAbs_neg,
    Rat.den_neg_eq_den]

/-- **Both signs are rounded alike.** -/
theorem nearest_neg (q : Rat) : nearest (-q) = -nearest q := by
  have hlast : lastExponent (-q) = lastExponent q := by
    rw [lastExponent, lastExponent, leadingExponent_neg]
  by_cases hq : q = 0
  · simp [hq, nearest]
  · rw [nearest, nearest, if_neg (neg_ne_zero.mpr hq), if_neg hq]
    dsimp only
    rw [hlast, neg_div, halfEven_neg, Int.cast_neg, neg_mul]

theorem abs_nearest (q : Rat) : |nearest q| = nearest |q| := by
  rcases le_total 0 q with h | h
  · rw [abs_of_nonneg h, abs_of_nonneg (nearest_nonneg h)]
  · have hneg := nearest_nonneg (neg_nonneg.mpr h)
    rw [abs_of_nonpos h, nearest_neg] at *
    rw [abs_of_nonpos (by linarith)]

/-! ### The bound -/

/-- What is rounded to less than an even integer is less than a half below it. -/
theorem halfEven_lt_iff {q : Rat} {n : Int} (hn : n % 2 = 0) : halfEven q < n ↔ q < n - 1 / 2 := by
  have hnear := abs_le.mp (abs_halfEven_sub_le q)
  constructor
  · intro h
    have hle : (halfEven q : Rat) ≤ n - 1 := by exact_mod_cast Int.le_sub_one_of_lt h
    refine lt_of_le_of_ne (by linarith) fun heq => ?_
    have hhalf : q = ((n - 1 : Int) : Rat) + 1 / 2 := by
      push_cast
      linarith
    rw [hhalf, halfEven_half, if_neg (by omega)] at h
    omega
  · intro h
    have hlt : (halfEven q : Rat) < n := by linarith
    exact_mod_cast hlt

end Rounding

namespace Binary64

open Rounding

/-- Magnitudes from here on are rounded out of the range: half of a last bit above the greatest
finite number. -/
def overflow : Rat := (2 : Rat) ^ (1024 : Int) - (2 : Rat) ^ (970 : Int)

/-- The last bit of the greatest finite number. -/
def lastUnit : Rat := (2 : Rat) ^ (971 : Int)

theorem lastUnit_pos : 0 < lastUnit := zpow_pos two_pos _

theorem two_pow_mul_lastUnit (k : Int) : (2 : Rat) ^ k * lastUnit = 2 ^ (k + 971) :=
  (zpow_add₀ two_ne_zero _ _).symm

theorem bound_eq : bound = ((2 ^ 53 : Int) : Rat) * lastUnit := by
  rw [bound, show (1024 : Int) = 53 + 971 by norm_num, ← two_pow_mul_lastUnit]
  norm_num

theorem overflow_eq : overflow = (((2 ^ 53 : Int) : Rat) - 1 / 2) * lastUnit := by
  rw [sub_mul, ← bound_eq, overflow, bound, show (970 : Int) = -1 + 971 by norm_num,
    ← two_pow_mul_lastUnit]
  norm_num

theorem overflow_lt_bound : overflow < bound := by
  rw [overflow_eq, bound_eq]
  exact mul_lt_mul_of_pos_right (by linarith) lastUnit_pos

theorem two_pow_lt_overflow : (2 : Rat) ^ (1023 : Int) < overflow := by
  rw [overflow_eq, show (1023 : Int) = 52 + 971 by norm_num, ← two_pow_mul_lastUnit]
  exact mul_lt_mul_of_pos_right (by norm_num) lastUnit_pos

/-- A magnitude is rounded into the range when it is below the bound. -/
theorem nearest_lt_bound_iff {q : Rat} (hq : 0 ≤ q) : nearest q < bound ↔ q < overflow := by
  rcases hq.eq_or_lt with rfl | hpos
  · have hoverflow : 0 < overflow := (zpow_pos two_pos _).trans two_pow_lt_overflow
    rw [nearest, if_pos rfl]
    exact iff_of_true (hoverflow.trans overflow_lt_bound) hoverflow
  have hspec := leadingExponent_spec hpos.ne'
  rw [abs_of_pos hpos] at hspec
  rcases lt_trichotomy (leadingExponent q) 1023 with hlt | heq | hgt
  · -- Rounding does not go beyond the next power of two, which is in the range.
    have hsmall : q < 2 ^ (1023 : Int) :=
      lt_of_lt_of_le hspec.2 (zpow_le_zpow_right₀ one_le_two (by omega))
    have hround : nearest q ≤ 2 ^ (1023 : Int) :=
      (le_abs_self _).trans (abs_nearest_le (by rwa [abs_of_pos hpos]) (by norm_num))
    exact iff_of_true ((hround.trans_lt two_pow_lt_overflow).trans overflow_lt_bound)
      (hsmall.trans two_pow_lt_overflow)
  · -- The last bit is that of the greatest number.
    have hlast : lastExponent q = 971 := by
      rw [lastExponent, heq]
      rfl
    have hround : nearest q = halfEven (q / lastUnit) * lastUnit := by
      rw [nearest, if_neg hpos.ne']
      dsimp only
      rw [hlast, lastUnit]
    rw [hround, bound_eq, overflow_eq, mul_lt_mul_iff_left₀ lastUnit_pos, Int.cast_lt,
      halfEven_lt_iff (by norm_num), div_lt_iff₀ lastUnit_pos]
  · have hlarge : bound ≤ q := le_trans (zpow_le_zpow_right₀ one_le_two (by omega)) hspec.1
    refine iff_of_false (fun h => ?_) (overflow_lt_bound.trans_le hlarge).not_gt
    exact hlarge.not_gt (lt_of_nearest_lt h (by norm_num))

/-- **Rounding gives a finite number below the bound, and only there.** -/
theorem isFinite_round_iff (negative : Bool) (q : Rat) :
    (round negative q).isFinite = true ↔ |q| < overflow := by
  rw [← nearest_lt_bound_iff (abs_nonneg q), ← abs_nearest]
  refine ⟨fun h => ?_, isFinite_round negative⟩
  unfold round at h
  dsimp only at h
  split_ifs at h with hzero hrep
  · rw [hzero.1, abs_zero]
    exact zpow_pos two_pos _
  · rw [← abs_eq_abs]
    exact hrep.2
  · cases h

/-- The product of the rationals that two numbers stand for is below the bound. -/
def ProductInRange (x y : Binary64) : Prop :=
  ∀ p ∈ x.toRat?, ∀ q ∈ y.toRat?, |p * q| < overflow

/-- **A product is finite when that of the rationals is below the bound**, and only then. -/
theorem isFinite_mul_iff {x y : Binary64} (hx : x.isFinite = true) (hy : y.isFinite = true) :
    (x * y).isFinite = true ↔ x.ProductInRange y := by
  obtain ⟨p, hp⟩ := Option.isSome_iff_exists.mp hx
  obtain ⟨q, hq⟩ := Option.isSome_iff_exists.mp hy
  have hmul : x * y = round (x.isNegative != y.isNegative) (p * q) := by
    change mul x y = _
    rw [mul, hp, hq]
  rw [hmul, isFinite_round_iff, ProductInRange, hp, hq]
  simp

end Binary64

end Handoff
