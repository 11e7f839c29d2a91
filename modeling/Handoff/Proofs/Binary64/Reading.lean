import Handoff.Proofs.Binary64.Digits
import Handoff.Proofs.Binary64.Overflow

/-!
# Decimals read as numbers

A decimal lies between the power of ten that its first digit counts and the next
one (`Decimal.toRat_bounds`). So those that are taken for infinite or for zero
without a look at their digits are out of the range or below half of the least
number, and reading a decimal is rounding it, whatever its exponent
(`Binary64.ofDecimal_eq_round`).
-/

namespace Handoff

open Rounding

namespace Decimal

theorem significand_bounds {d : Decimal} (hd : d.significand ≠ 0) :
    10 ^ (d.digits.length - 1) ≤ d.significand ∧ d.significand < 10 ^ d.digits.length := by
  have hlength : 0 < d.digits.length := List.length_pos_of_ne_nil Nat.toDigits_ne_nil
  refine ⟨?_, (Nat.length_toDigits_le_iff (by decide) hlength).mp le_rfl⟩
  rcases Nat.eq_zero_or_pos (d.digits.length - 1) with hone | hmore
  · rw [hone]
    exact Nat.pos_of_ne_zero hd
  · by_contra hlt
    have hle := (Nat.length_toDigits_le_iff (by decide) hmore).mpr (not_le.mp hlt)
    change d.digits.length ≤ d.digits.length - 1 at hle
    omega

/-- **A decimal lies between the powers of ten that belong to its first digit.** -/
theorem toRat_bounds {d : Decimal} (hd : d.significand ≠ 0) :
    (10 : Rat) ^ d.leadingExponent ≤ d.toRat ∧ d.toRat < 10 ^ (d.leadingExponent + 1) := by
  have hlength : 0 < d.digits.length := List.length_pos_of_ne_nil Nat.toDigits_ne_nil
  obtain ⟨hlower, hupper⟩ := significand_bounds hd
  have hten : (0 : Rat) < 10 ^ d.exponent := by positivity
  have hlead : d.leadingExponent = ((d.digits.length - 1 : Nat) : Int) + d.exponent := by
    rw [leadingExponent]
    omega
  have hnext : d.leadingExponent + 1 = (d.digits.length : Int) + d.exponent := by
    rw [leadingExponent]
    omega
  rw [hnext, hlead, zpow_add₀ (by norm_num), zpow_add₀ (by norm_num), zpow_natCast, zpow_natCast,
    toRat]
  constructor
  · refine mul_le_mul_of_nonneg_right ?_ hten.le
    exact_mod_cast hlower
  · refine mul_lt_mul_of_pos_right ?_ hten
    exact_mod_cast hupper

theorem toRat_nonneg (d : Decimal) : 0 ≤ d.toRat := by
  rw [toRat]
  positivity

theorem toRat_of_significand_eq_zero {d : Decimal} (hd : d.significand = 0) : d.toRat = 0 := by
  rw [toRat, hd, Nat.cast_zero, zero_mul]

/-- Digits that begin with so high a place are out of the range. -/
theorem bound_le_toRat {d : Decimal} (hd : d.significand ≠ 0) (h : 310 ≤ d.leadingExponent) :
    Binary64.bound ≤ d.toRat := by
  have hpow : (2 : Nat) ^ 1024 ≤ 10 ^ 310 := by decide +kernel
  calc Binary64.bound = ((2 ^ 1024 : Nat) : Rat) := by
        rw [Binary64.bound, Nat.cast_pow, Nat.cast_ofNat, ← zpow_natCast]
        rfl
    _ ≤ ((10 ^ 310 : Nat) : Rat) := Nat.cast_le.mpr hpow
    _ = 10 ^ (310 : Int) := by
        rw [Nat.cast_pow, Nat.cast_ofNat, ← zpow_natCast]
        rfl
    _ ≤ 10 ^ d.leadingExponent := zpow_le_zpow_right₀ (by norm_num) h
    _ ≤ d.toRat := (toRat_bounds hd).1

/-- Digits that begin with so low a place are below half of the least number. -/
theorem toRat_lt_of_leadingExponent_lt {d : Decimal} (hd : d.significand ≠ 0)
    (h : d.leadingExponent < -330) : d.toRat < 2 ^ (-1075 : Int) := by
  have hpow : (2 : Nat) ^ 1075 ≤ 10 ^ 330 := by decide +kernel
  have hpow' : (2 : Rat) ^ (1075 : Int) ≤ 10 ^ (330 : Int) := by
    have hcast : ((2 ^ 1075 : Nat) : Rat) ≤ ((10 ^ 330 : Nat) : Rat) := Nat.cast_le.mpr hpow
    rw [Nat.cast_pow, Nat.cast_pow, Nat.cast_ofNat, Nat.cast_ofNat, ← zpow_natCast,
      ← zpow_natCast] at hcast
    exact hcast
  calc d.toRat < 10 ^ (d.leadingExponent + 1) := (toRat_bounds hd).2
    _ ≤ 10 ^ (-330 : Int) := zpow_le_zpow_right₀ (by norm_num) (by omega)
    _ ≤ 2 ^ (-1075 : Int) := by
        rw [zpow_neg, zpow_neg]
        exact inv_anti₀ (by positivity) hpow'

end Decimal

namespace Rounding

/-- What is less than half of the least number is rounded to zero. -/
theorem nearest_eq_zero {q : Rat} (hq : 0 ≤ q) (h : q < 2 ^ (-1075 : Int)) : nearest q = 0 := by
  rcases hq.eq_or_lt with rfl | hpos
  · exact if_pos rfl
  have hlead : leadingExponent q < -1075 := leadingExponent_lt hpos.ne' (by rwa [abs_of_pos hpos])
  have hlast : lastExponent q = -1074 := by
    rw [lastExponent]
    omega
  have hunit : (0 : Rat) < 2 ^ (-1074 : Int) := by positivity
  have hhalf : q / 2 ^ (-1074 : Int) < 1 / 2 := by
    rw [div_lt_iff₀ hunit]
    calc q < 2 ^ (-1075 : Int) := h
      _ = 1 / 2 * 2 ^ (-1074 : Int) := by
        rw [show (-1075 : Int) = -1 + -1074 by norm_num, zpow_add₀ two_ne_zero]
        norm_num
  have hfloor : ⌊q / 2 ^ (-1074 : Int)⌋ = 0 := by
    rw [Int.floor_eq_zero_iff]
    exact ⟨by positivity, by linarith⟩
  rw [nearest, if_neg hpos.ne']
  dsimp only
  rw [hlast, halfEven_of_lt (by rw [hfloor]; simpa using hhalf), hfloor, Int.cast_zero, zero_mul]

end Rounding

namespace Binary64

/-- A rational with a sign given apart. -/
def signed (negative : Bool) (q : Rat) : Rat := if negative then -q else q

theorem nearest_signed (negative : Bool) (q : Rat) :
    nearest (signed negative q) = signed negative (nearest q) := by
  cases negative with
  | true => exact nearest_neg q
  | false => rfl

theorem abs_signed (negative : Bool) (q : Rat) : |signed negative q| = |q| := by
  cases negative with
  | true => exact abs_neg q
  | false => rfl

theorem round_zero (negative : Bool) :
    round negative 0 = if negative then .negativeZero else 0 := by
  cases negative with
  | true => rfl
  | false =>
    have hzero : (0 : Binary64) = ofInt (0 : Nat) := rfl
    rw [if_neg Bool.false_ne_true, hzero, ofInt, Nat.cast_zero, Int.cast_zero]

theorem round_eq_of_nearest {negative : Bool} {p q : Rat} (h : nearest p = nearest q) :
    round negative p = round negative q := by
  rw [round, round, h]

/-- What is out of the range is rounded to infinity, with its sign. -/
theorem round_signed_of_bound_le (negative : Bool) {q : Rat} (h : bound ≤ q) :
    round negative (signed negative q) = .infinite negative := by
  have hround : bound ≤ nearest q := by
    refine not_lt.mp fun hlt => ?_
    exact h.not_gt (lt_of_nearest_lt hlt (by norm_num))
  have hbound : 0 < bound := zpow_pos two_pos _
  have hnot : ¬Representable (nearest (signed negative q)) := fun hrep => by
    have hlt := hrep.2
    rw [abs_eq_abs, nearest_signed, abs_signed] at hlt
    exact hround.not_gt ((le_abs_self _).trans_lt hlt)
  have hne : nearest (signed negative q) ≠ 0 := by
    rw [nearest_signed, ← abs_pos, abs_signed]
    exact (hbound.trans_le hround).trans_le (le_abs_self _)
  rw [round, if_neg (fun hzero => hne hzero.1), dif_neg hnot, nearest_signed]
  cases negative with
  | true => simpa [signed] using hbound.trans_le hround
  | false => simpa [signed] using (hbound.trans_le hround).le

/-- **Reading a decimal is rounding it**, also where its digits are not looked at. -/
theorem ofDecimal_eq_round (negative : Bool) (d : Decimal) :
    ofDecimal negative d = round negative (signed negative d.toRat) := by
  have hzero : ∀ q, nearest q = 0 →
      round negative (signed negative q) = if negative then .negativeZero else 0 := by
    intro q hq
    rw [← round_zero]
    refine round_eq_of_nearest ?_
    rw [nearest_signed, hq]
    cases negative <;> rfl
  unfold ofDecimal
  dsimp only
  split
  · next hd =>
    rw [Decimal.toRat_of_significand_eq_zero hd, hzero 0 (if_pos rfl)]
  · next hd =>
    split
    · next hhigh => exact (round_signed_of_bound_le negative (Decimal.bound_le_toRat hd hhigh)).symm
    · split
      · next hlow =>
        have hsmall := Decimal.toRat_lt_of_leadingExponent_lt hd hlow
        rw [hzero _ (nearest_eq_zero d.toRat_nonneg hsmall)]
      · rfl

/-- A decimal that the magnitude of a number is nearest to is read, with its sign, as the number. -/
theorem ofDecimal_eq_finite {p : Rat} (hp : Representable p) (hne : p ≠ 0) {d : Decimal}
    (h : nearest d.toRat = |p|) : ofDecimal (decide (p < 0)) d = .finite p hp := by
  have hsigned : nearest (signed (decide (p < 0)) d.toRat) = p := by
    rw [nearest_signed, h, signed]
    split
    · next hneg => rw [abs_of_neg (of_decide_eq_true hneg), neg_neg]
    · next hpos => exact abs_of_nonneg (not_lt.mp fun hneg => hpos (decide_eq_true hneg))
  have hzero : ¬(p = 0 ∧ decide (p < 0) = true) := fun h => hne h.1
  rw [ofDecimal_eq_round, round]
  simp only [hsigned, if_neg hzero, dif_pos hp]

end Binary64

end Handoff
