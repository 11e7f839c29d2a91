import Handoff.Binary64.Decimal
import Mathlib.Algebra.Order.Field.Rat
import Mathlib.Tactic.Linarith
import Mathlib.Tactic.Positivity
import Mathlib.Tactic.SplitIfs

/-!
# Digits of printed numbers

The digits that a number above zero is printed with are those of an integer that
is not zero, so the first of them is not a zero.
-/

namespace Handoff

/-! ### Digits of integers -/

/-- The text has digits and nothing else. -/
def AllDigits (t : List Char) : Prop := ∀ c ∈ t, c.isDigit = true

theorem allDigits_toDigits (n : Nat) : AllDigits (Nat.toDigits 10 n) :=
  fun _ => Nat.isDigit_of_mem_toDigits (by decide) (by decide)

theorem AllDigits.append {s t : List Char} (hs : AllDigits s) (ht : AllDigits t) :
    AllDigits (s ++ t) := by
  intro c hc
  rcases List.mem_append.mp hc with h | h
  · exact hs c h
  · exact ht c h

theorem allDigits_replicate (n : Nat) : AllDigits (List.replicate n '0') := by
  intro c hc
  rw [List.eq_of_mem_replicate hc]
  rfl

theorem digitChar_ne_zero : ∀ n < 10, n ≠ 0 → n.digitChar ≠ '0' := by decide

/-- The first digit of an integer above zero is not a zero. -/
theorem head?_toDigits_ne {n : Nat} (h : n ≠ 0) : (Nat.toDigits 10 n).head? ≠ some '0' := by
  induction n using Nat.strongRecOn with
  | _ n ih =>
    rw [Nat.toDigits_eq_if (by decide)]
    split
    · next hlt => simpa using digitChar_ne_zero n hlt h
    · rw [List.head?_append_of_ne_nil _ Nat.toDigits_ne_nil]
      exact ih (n / 10) (by omega) (by omega)

/-! ### The shortest digits -/

namespace Decimal

theorem trimZeros_significand_ne_zero (limit : Nat) {d : Decimal} (h : d.significand ≠ 0) :
    (trimZeros limit d).significand ≠ 0 := by
  induction limit generalizing d with
  | zero => exact h
  | succ limit ih =>
    unfold trimZeros
    split
    · exact ih (show d.significand / 10 ≠ 0 by omega)
    · exact h

/-- As many places as the denominator has bits bring a positive number to one or more. -/
theorem one_le_mul_places {q : Rat} (hq : 0 < q) : 1 ≤ q * (10 : Rat) ^ q.den.log2 := by
  have hden : q.den ≤ 10 ^ q.den.log2 := by
    have hlt : q.den < 2 ^ (q.den.log2 + 1) := (Nat.log2_lt q.den_nz).mp (Nat.lt_succ_self _)
    rcases Nat.eq_zero_or_pos q.den.log2 with h | h
    · rw [h] at hlt ⊢
      omega
    · calc q.den ≤ 2 ^ (q.den.log2 + 1) := hlt.le
        _ = 2 ^ q.den.log2 * 2 := pow_succ _ _
        _ ≤ 2 ^ q.den.log2 * 5 ^ q.den.log2 := by
          refine Nat.mul_le_mul_left _ ?_
          calc 2 ≤ 5 ^ 1 := by decide
            _ ≤ 5 ^ q.den.log2 := Nat.pow_le_pow_right (by decide) h
        _ = 10 ^ q.den.log2 := by rw [← Nat.mul_pow]
  have hnum : (1 : Rat) ≤ q * q.den := by
    rw [Rat.mul_den_eq_num]
    exact_mod_cast Rat.num_pos.mpr hq
  calc (1 : Rat) ≤ q * q.den := hnum
    _ ≤ q * (10 : Rat) ^ q.den.log2 := by
      refine mul_le_mul_of_nonneg_left ?_ hq.le
      exact_mod_cast hden

theorem exact_significand_ne_zero {q : Rat} (hq : 0 < q) : (exact q).significand ≠ 0 := by
  refine trimZeros_significand_ne_zero _ ?_
  have h : 1 ≤ (q * (10 : Rat) ^ q.den.log2).floor :=
    Rat.le_floor_iff.mpr (by exact_mod_cast one_le_mul_places hq)
  show (q * (10 : Rat) ^ q.den.log2).floor.toNat ≠ 0
  omega

/-- **A number above zero is printed with digits of an integer above zero.** -/
theorem shortest_significand_ne_zero (tie : TieRule) {q : Rat} (hq : 0 < q) :
    (shortest tie q).significand ≠ 0 := by
  unfold shortest
  dsimp only
  split
  · next d hfound =>
    obtain ⟨_, _, hfind⟩ := List.exists_of_findSome?_eq_some hfound
    have hd := List.find?_some hfind
    exact trimZeros_significand_ne_zero _ (of_decide_eq_true hd).1
  · exact exact_significand_ne_zero hq

end Decimal

end Handoff
