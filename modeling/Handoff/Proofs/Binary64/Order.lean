import Handoff.Proofs.Binary64.Equality
import Mathlib.Algebra.Order.Ring.Unbundled.Rat
import Mathlib.Order.WithBot

/-!
# The order of positive numbers

Numbers greater than zero are ordered as the rationals that they stand for, with
infinity above all (`lt_iff_rank`, `le_iff_rank`), and no two of them have the same
place in this order (`eq_of_rank_eq`). In particular they are told apart by their
values alone, since none of them is the negative zero.
-/

namespace Handoff.Binary64

/-- Where a number stands among others: at its rational, or above all of these. -/
def rank : Binary64 → WithTop Rat
  | finite q _ => q
  | negativeZero => (0 : Rat)
  | infinite _ | nan => ⊤

/-- A number greater than zero is finite or infinity. -/
theorem cases_of_pos {x : Binary64} (h : 0 < x) :
    (∃ q, ∃ hq : Representable q, x = .finite q hq ∧ 0 < q) ∨ x = .infinite false := by
  obtain ⟨hzero, heq⟩ := zero_eq
  rw [heq] at h
  cases x with
  | finite q hq => exact .inl ⟨q, hq, rfl, of_decide_eq_true h⟩
  | negativeZero => exact absurd (of_decide_eq_true (p := (0 : Rat) < 0) h) (lt_irrefl 0)
  | infinite negative =>
    cases negative with
    | false => exact .inr rfl
    | true => cases h
  | nan => cases h

section Positive

variable {x y : Binary64} (hx : 0 < x) (hy : 0 < y)

include hx hy

theorem lt_iff_rank : x < y ↔ x.rank < y.rank := by
  obtain ⟨p, hp, rfl, -⟩ | rfl := cases_of_pos hx <;>
    obtain ⟨q, hq, rfl, -⟩ | rfl := cases_of_pos hy
  · exact decide_eq_true_iff.trans WithTop.coe_lt_coe.symm
  · exact iff_of_true rfl (WithTop.coe_lt_top p)
  · exact iff_of_false Bool.false_ne_true not_top_lt
  · exact iff_of_false Bool.false_ne_true (lt_irrefl _)

theorem eq_of_rank_eq (h : x.rank = y.rank) : x = y := by
  obtain ⟨p, hp, rfl, -⟩ | rfl := cases_of_pos hx <;>
    obtain ⟨q, hq, rfl, -⟩ | rfl := cases_of_pos hy
  · obtain rfl := WithTop.coe_injective h
    rfl
  · exact absurd h WithTop.coe_ne_top
  · exact absurd h WithTop.top_ne_coe
  · rfl

theorem le_iff_rank : x ≤ y ↔ x.rank ≤ y.rank := by
  have hequals : x.equals y = true ↔ x.rank = y.rank := by
    obtain ⟨p, hp, rfl, -⟩ | rfl := cases_of_pos hx <;>
      obtain ⟨q, hq, rfl, -⟩ | rfl := cases_of_pos hy
    · exact beq_iff_eq.trans WithTop.coe_injective.eq_iff.symm
    · exact iff_of_false Bool.false_ne_true WithTop.coe_ne_top
    · exact iff_of_false Bool.false_ne_true WithTop.top_ne_coe
    · exact iff_of_true rfl rfl
  rw [le_iff_lt_or_eq, ← lt_iff_rank hx hy, ← hequals]
  exact Bool.or_eq_true_iff

omit hy in
theorem unsignedZero_of_pos : x.unsignedZero = x := by
  obtain ⟨p, hp, rfl, -⟩ | rfl := cases_of_pos hx <;> rfl

end Positive

end Handoff.Binary64
