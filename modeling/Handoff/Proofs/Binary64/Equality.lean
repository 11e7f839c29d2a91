import Handoff.Json.Basic

/-!
# Equal numbers

Two finite numbers are equal when they stand for the same rational, so the two
zeros are equal and no other two. A quantity as JSON tells numbers apart up to
this equality (`equals_of_quantity_eq`).
-/

namespace Handoff

namespace Binary64

/-- Finite numbers are equal when they stand for the same rational. -/
theorem equals_iff {x y : Binary64} (hx : x.isFinite = true) :
    x.equals y = true ↔ x.toRat? = y.toRat? := by
  cases x <;> cases y <;> simp_all [equals, isFinite, toRat?]

theorem isFinite_zero : (0 : Binary64).isFinite = true := by decide +kernel

theorem equals_refl {x : Binary64} (hx : x.isFinite = true) : x.equals x = true :=
  (equals_iff hx).mpr rfl

theorem equals_symm {x y : Binary64} (hx : x.isFinite = true) (h : x.equals y = true) :
    y.equals x = true := by
  have hrat := (equals_iff hx).mp h
  have hy : y.isFinite = true := by rwa [isFinite, ← hrat]
  exact (equals_iff hy).mpr hrat.symm

theorem equals_trans {x y z : Binary64} (hx : x.isFinite = true) (hxy : x.equals y = true)
    (hyz : y.equals z = true) : x.equals z = true := by
  have hrat := (equals_iff hx).mp hxy
  have hy : y.isFinite = true := by rwa [isFinite, ← hrat]
  exact (equals_iff hx).mpr (hrat.trans ((equals_iff hy).mp hyz))

/-- An integer that a number is equal to says which rational the number stands for. -/
theorem toRat?_of_toInt? {x : Binary64} {n : Int} (h : x.toInt? = some n) :
    x.toRat? = some (n : Rat) := by
  unfold toInt? at h
  split at h
  · next q hq =>
    split at h
    · next hden =>
      obtain rfl : q.num = n := by simpa using h
      rw [hq]
      congr 1
      exact Rat.ext rfl hden
    · cases h
  · cases h

theorem toInt?_of_asInteger? {x : Binary64} {n : Int} (h : x.asInteger? = some n) :
    x.toInt? = some n := by
  unfold asInteger? at h
  split at h
  · split at h
    · simp_all
    · cases h
  · cases h

/-- Equal finite numbers are one number or two zeros. -/
theorem eq_or_toRat?_eq_zero {x y : Binary64} (hx : x.isFinite = true) (h : x.equals y = true) :
    x = y ∨ x.toRat? = some 0 ∧ y.toRat? = some 0 := by
  have hrat := (equals_iff hx).mp h
  cases x <;> cases y <;> simp_all [toRat?, isFinite]

theorem toInt?_of_toRat?_eq_zero {x : Binary64} (h : x.toRat? = some 0) : x.toInt? = some 0 := by
  simp [toInt?, h]

/-! ### Numbers as keys -/

theorem zero_eq : ∃ h, (0 : Binary64) = .finite 0 h := by
  have h : (0 : Binary64).toRat? = some 0 ∧ (0 : Binary64) ≠ .negativeZero := by decide +kernel
  generalize (0 : Binary64) = zero at h
  cases zero with
  | finite q hq =>
    obtain rfl : q = 0 := by simpa [toRat?] using h.1
    exact ⟨hq, rfl⟩
  | negativeZero => exact absurd rfl h.2
  | infinite _ => cases h.1
  | nan => cases h.1

end Binary64

/-- Two numbers are the same as keys: they are one, or both are zeros. -/
def SameNumber (x y : Binary64) : Prop := x = y ∨ x.equals y = true

instance (x y : Binary64) : Decidable (SameNumber x y) := inferInstanceAs (Decidable (_ ∨ _))

/-- Without the sign of zero, numbers that are the same as keys are one. -/
theorem unsignedZero_eq_iff {x y : Binary64} :
    x.unsignedZero = y.unsignedZero ↔ SameNumber x y := by
  obtain ⟨h, hzero⟩ := Binary64.zero_eq
  cases x <;> cases y <;>
    simp [SameNumber, Binary64.unsignedZero, Binary64.equals, Binary64.toRat?, hzero]

open Binary64

/-- **Quantities tell numbers apart.** -/
theorem Json.equals_of_quantity_eq {x y : Binary64} (hx : x.isFinite = true) (hy : y.isFinite = true)
    (h : quantity x = quantity y) : x.equals y = true := by
  refine (equals_iff hx).mpr ?_
  unfold quantity at h
  split at h
  · next n hn =>
    split at h
    · next m hm =>
      obtain rfl : n = m := by simpa using h
      rw [toRat?_of_toInt? (toInt?_of_asInteger? hn), toRat?_of_toInt? (toInt?_of_asInteger? hm)]
    · simp [ofBinary64, hy] at h
  · split at h
    · simp [ofBinary64, hx] at h
    · obtain rfl : x = y := by simpa [ofBinary64, hx, hy] using h
      rfl

/-- Equal numbers are written alike. -/
theorem Json.quantity_eq_of_equals {x y : Binary64} (hx : x.isFinite = true)
    (h : x.equals y = true) : quantity x = quantity y := by
  rcases eq_or_toRat?_eq_zero hx h with rfl | ⟨hx₀, hy₀⟩
  · rfl
  · simp [quantity, asInteger?, toInt?_of_toRat?_eq_zero hx₀, toInt?_of_toRat?_eq_zero hy₀]

end Handoff
