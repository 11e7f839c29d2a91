import Handoff.Proofs.Binary64.Order
import Handoff.Proofs.Binary64.Printing

/-!
# What quantities say of numbers

A quantity is written as the number that it is shown as (`quantity_eq_text`): itself
if it is whole, and else rounded to thousandths. Since printing tells numbers apart,
two quantities are written alike exactly when they are shown as the same number
(`quantity_eq_iff`).

Rounding to thousandths takes three steps, each of which is rounded itself. Below
`2 ^ 39` this adds little to the half of a thousandth (`abs_shown_sub_le`), and so
numbers below `2 ^ 40` whose quarters are shown alike differ by less than a two
hundredth (`abs_sub_lt_of_shown_quarter_eq`).

The other way round, what is shown as a small number is small
(`exists_toRat?_of_shown`), and what is close to some eighths, which are whole
thousandths, is shown as these (`toRat?_shown_of_near`).
-/

namespace Handoff.Binary64

open Rounding

/-! ### Arithmetic without signs -/

theorem IsMagnitude.isNegative_eq {x : Binary64} (h : x.IsMagnitude) : x.isNegative = false := by
  cases h with
  | finite h hq => exact decide_eq_false hq.not_gt
  | infinite => rfl

theorem IsMagnitude.of_pos {x : Binary64} (h : 0 < x) : x.IsMagnitude := by
  obtain ⟨q, hq, rfl, hpos⟩ | rfl := cases_of_pos h
  · exact .finite hq hpos.le
  · exact .infinite

theorem IsMagnitude.nonneg {x : Binary64} (h : x.IsMagnitude) {q : Rat} (hq : x.toRat? = some q) :
    0 ≤ q := by
  cases h with
  | finite h hq' => exact Option.some.inj hq ▸ hq'
  | infinite => cases hq

/-- Magnitudes are equal where they stand for the same number. -/
theorem IsMagnitude.eq_of_toRat?_eq {x y : Binary64} (hx : x.IsMagnitude) (hy : y.IsMagnitude) {q : Rat}
    (hxq : x.toRat? = some q) (hyq : y.toRat? = some q) : x = y := by
  cases hx with
  | finite h hq =>
    cases hy with
    | finite h' hq' =>
      obtain rfl := Option.some.inj hxq
      obtain rfl := Option.some.inj hyq
      rfl
    | infinite => cases hyq
  | infinite => cases hxq

theorem isMagnitude_round {q : Rat} (hq : 0 ≤ q) : (round false q).IsMagnitude := by
  have hnonneg := nearest_nonneg hq
  unfold round
  dsimp only
  rw [if_neg (by simp)]
  split
  · next h => exact .finite h hnonneg
  · rw [decide_eq_false hnonneg.not_gt]
    exact .infinite

/-- What is in range is rounded to the nearest number. -/
theorem toRat?_round {q : Rat} {k : Int} (h : |q| < 2 ^ k) (hk : -1021 ≤ k) (hk' : k < 1024) :
    (round false q).toRat? = some (nearest q) := by
  have hrange : |nearest q| < bound :=
    lt_of_le_of_lt (abs_nearest_le h hk) (zpow_lt_zpow_right₀ one_lt_two hk')
  have hrep : Representable (nearest q) := ⟨nearest_nearest q, by rwa [abs_eq_abs]⟩
  unfold round
  dsimp only
  rw [if_neg (by simp), dif_pos hrep]
  rfl

/-- An integer of 53 bits is a number of the format. -/
theorem toRat?_ofInt {n : Int} (h : |n| ≤ 2 ^ 53) : (ofInt n).toRat? = some (n : Rat) := by
  have habs : |(n : Rat)| < 2 ^ (54 : Int) := by
    have hle : |(n : Rat)| ≤ 2 ^ (53 : Int) := by exact_mod_cast h
    exact lt_of_le_of_lt hle (by norm_num)
  rw [ofInt, toRat?_round habs (by norm_num) (by norm_num), nearest_intCast h]

theorem exists_eq_finite {c : Binary64} {r : Rat} (hc : c.toRat? = some r) (hr : 0 < r) :
    ∃ h, c = .finite r h := by
  cases c with
  | finite q h =>
    obtain rfl := Option.some.inj hc
    exact ⟨h, rfl⟩
  | negativeZero => exact absurd (Option.some.inj hc) hr.ne
  | infinite | nan => cases hc

section Constant

variable {x c : Binary64} (hx : x.IsMagnitude) {r : Rat} (hc : c.toRat? = some r) (hr : 0 < r)

include hc hr

theorem infinite_mul : infinite false * c = infinite false := by
  obtain ⟨h, rfl⟩ := exists_eq_finite hc hr
  change mul _ _ = _
  simp [mul, toRat?, isNegative, hr.ne', hr.not_gt]

theorem infinite_div : infinite false / c = infinite false := by
  obtain ⟨h, rfl⟩ := exists_eq_finite hc hr
  change div _ _ = _
  simp [div, toRat?, isNegative, hr.not_gt]

include hx

theorem mul_eq_round {q : Rat} (hq : x.toRat? = some q) : x * c = round false (q * r) := by
  obtain ⟨h, rfl⟩ := exists_eq_finite hc hr
  have hsign : isNegative (.finite r h) = false := decide_eq_false hr.not_gt
  change mul x (.finite r h) = _
  simp [mul, hq, hx.isNegative_eq, hsign, hc]

theorem div_eq_round {q : Rat} (hq : x.toRat? = some q) : x / c = round false (q / r) := by
  obtain ⟨h, rfl⟩ := exists_eq_finite hc hr
  have hsign : isNegative (.finite r h) = false := decide_eq_false hr.not_gt
  change div x (.finite r h) = _
  simp [div, hq, hx.isNegative_eq, hsign, hc, hr.ne']

theorem IsMagnitude.mul : (x * c).IsMagnitude := by
  cases hx with
  | finite h hq =>
    rw [mul_eq_round (.finite h hq) hc hr rfl]
    exact isMagnitude_round (mul_nonneg hq hr.le)
  | infinite =>
    rw [infinite_mul hc hr]
    exact .infinite

theorem IsMagnitude.div : (x / c).IsMagnitude := by
  cases hx with
  | finite h hq =>
    rw [div_eq_round (.finite h hq) hc hr rfl]
    exact isMagnitude_round (div_nonneg hq hr.le)
  | infinite =>
    rw [infinite_div hc hr]
    exact .infinite

end Constant

theorem roundToWhole_eq_round {x : Binary64} (hx : x.IsMagnitude) {q : Rat} (hq : x.toRat? = some q) :
    x.roundToWhole = round false (halfAway q) := by
  simp [roundToWhole, hq, hx.isNegative_eq]

theorem IsMagnitude.roundToWhole {x : Binary64} (hx : x.IsMagnitude) : x.roundToWhole.IsMagnitude := by
  cases hx with
  | finite h hq =>
    rw [roundToWhole_eq_round (.finite h hq) rfl]
    exact isMagnitude_round (by exact_mod_cast halfAway_nonneg hq)
  | infinite => exact .infinite

theorem toRat?_thousand : (1000 : Binary64).toRat? = some 1000 := by decide +kernel

theorem toRat?_four : (4 : Binary64).toRat? = some 4 := by decide +kernel

theorem toRat?_sixteen : (16 : Binary64).toRat? = some 16 := by decide +kernel

/-! ### Quantities -/

/-- The number that a quantity is shown as: itself where it is written as an integer, and otherwise
the number rounded to thousandths. -/
def shown (x : Binary64) : Binary64 :=
  if x.asInteger?.isSome then x else (x * 1000).roundToWhole / 1000

theorem IsMagnitude.shown {x : Binary64} (hx : x.IsMagnitude) : x.shown.IsMagnitude := by
  unfold Binary64.shown
  split
  · exact hx
  · exact (hx.mul toRat?_thousand (by norm_num)).roundToWhole.div toRat?_thousand (by norm_num)

theorem natAbs_lt_of_asInteger? {x : Binary64} {n : Int} (h : x.asInteger? = some n) :
    n.natAbs < 10 ^ 15 := by
  unfold asInteger? at h
  split at h
  · split at h
    · next hlt => exact Option.some.inj h ▸ hlt
    · cases h
  · cases h

/-- A quantity is written as the number that it is shown as. -/
theorem quantity_eq_text {x : Binary64} (hx : x.IsMagnitude) :
    x.quantity = .ofList (NumberLayout.plain.text x.shown) := by
  cases hinteger : x.asInteger? with
  | none => simp [quantity, Binary64.shown, hinteger]
  | some n =>
    have hvalue := toRat?_of_toInt? (toInt?_of_asInteger? hinteger)
    cases hx with
    | finite h hq =>
      obtain rfl := Option.some.inj hvalue
      obtain ⟨m, rfl⟩ := Int.eq_ofNat_of_zero_le (by exact_mod_cast hq)
      have hwhole := NumberLayout.text_natCast (natAbs_lt_of_asInteger? hinteger) h
      simp only [quantity, Binary64.shown, hinteger, Option.isSome_some, if_true]
      exact congrArg String.ofList hwhole.symm
    | infinite => cases hvalue

/-- A quantity is written in places, unless it is shown as infinity. -/
theorem isPlaces_quantity_or {x : Binary64} (hx : x.IsMagnitude) :
    IsPlaces x.quantity.toList ∨ x.shown.toRat? = none ∧ x.quantity = "inf" := by
  rw [quantity_eq_text hx, String.toList_ofList]
  have hshown := hx.shown
  generalize x.shown = y at hshown
  cases hshown with
  | finite hrep hq => exact .inl (NumberLayout.isPlaces_text hrep hq)
  | infinite => exact .inr ⟨rfl, rfl⟩

/-- **Quantities are written alike exactly when they are shown as the same number.** -/
theorem quantity_eq_iff {x y : Binary64} (hx : x.IsMagnitude) (hy : y.IsMagnitude) :
    x.quantity = y.quantity ↔ x.shown = y.shown := by
  rw [quantity_eq_text hx, quantity_eq_text hy]
  refine ⟨fun h => ?_, fun h => by rw [h]⟩
  exact NumberLayout.text_injective hx.shown hy.shown (String.ofList_injective h)

/-! ### How far what is shown is off -/

/-- A magnitude in range is rounded by at most half of its last bit. -/
theorem exists_toRat?_round {q : Rat} (hq : 0 ≤ q) {k : Int} (h : q < 2 ^ k) (hk : -1021 ≤ k)
    (hk' : k < 1024) : ∃ r, (round false q).toRat? = some r ∧ |r - q| ≤ 2 ^ (k - 54) := by
  have habs : |q| < 2 ^ k := by rwa [abs_of_nonneg hq]
  exact ⟨nearest q, toRat?_round habs hk hk', abs_nearest_sub_le habs hk⟩

section Range

variable {x : Binary64} (hx : x.IsMagnitude) {q : Rat} (hq : x.toRat? = some q)

include hx hq

theorem exists_toRat?_mul {c : Binary64} {r : Rat} (hc : c.toRat? = some r) (hr : 0 < r) {k : Int}
    (h : q * r < 2 ^ k) (hk : -1021 ≤ k) (hk' : k < 1024) :
    ∃ a, (x * c).toRat? = some a ∧ |a - q * r| ≤ 2 ^ (k - 54) := by
  rw [mul_eq_round hx hc hr hq]
  exact exists_toRat?_round (mul_nonneg (hx.nonneg hq) hr.le) h hk hk'

theorem exists_toRat?_div {c : Binary64} {r : Rat} (hc : c.toRat? = some r) (hr : 0 < r) {k : Int}
    (h : q / r < 2 ^ k) (hk : -1021 ≤ k) (hk' : k < 1024) :
    ∃ a, (x / c).toRat? = some a ∧ |a - q / r| ≤ 2 ^ (k - 54) := by
  rw [div_eq_round hx hc hr hq]
  exact exists_toRat?_round (div_nonneg (hx.nonneg hq) hr.le) h hk hk'

/-- The integer that a number is rounded to is a number of the format, unless it is huge. -/
theorem toRat?_roundToWhole (h : (halfAway q : Rat) < 2 ^ (50 : Int)) :
    x.roundToWhole.toRat? = some (halfAway q : Rat) := by
  have hnonneg : (0 : Rat) ≤ halfAway q := by exact_mod_cast halfAway_nonneg (hx.nonneg hq)
  have habs : |(halfAway q : Rat)| < 2 ^ (50 : Int) := by rwa [abs_of_nonneg hnonneg]
  have hbits : |halfAway q| ≤ 2 ^ 53 := by
    exact_mod_cast le_trans habs.le (by norm_num : (2 : Rat) ^ (50 : Int) ≤ 2 ^ 53)
  rw [roundToWhole_eq_round hx hq, toRat?_round habs (by norm_num) (by norm_num),
    nearest_intCast hbits]

/-- Rounding to thousandths is off by half of one, and by what its steps are rounded. -/
theorem abs_shown_sub_le (hlt : q < 2 ^ 39) : ∃ r, x.shown.toRat? = some r ∧ |r - q| ≤ 6 / 10000 := by
  unfold Binary64.shown
  split
  · exact ⟨q, hq, by rw [sub_self, abs_zero]; norm_num⟩
  · have hpos : (0 : Rat) < 1000 := by norm_num
    have hscaled := hx.mul toRat?_thousand hpos
    have hrange : q * 1000 < 2 ^ (49 : Int) := by
      norm_num at hlt ⊢
      linarith
    obtain ⟨a, ha, hscale⟩ :=
      exists_toRat?_mul hx hq toRat?_thousand hpos hrange (by norm_num) (by norm_num)
    norm_num [abs_le] at hscale
    have hnear := abs_le.mp (abs_halfAway_sub_le (hscaled.nonneg ha))
    have hwhole : (halfAway a : Rat) < 2 ^ (50 : Int) := by
      norm_num at hlt ⊢
      linarith
    have hrange' : (halfAway a : Rat) / 1000 < 2 ^ (40 : Int) := by
      norm_num at hlt ⊢
      linarith
    obtain ⟨b, hb, hback⟩ := exists_toRat?_div hscaled.roundToWhole
      (toRat?_roundToWhole hscaled ha hwhole) toRat?_thousand hpos hrange' (by norm_num) (by norm_num)
    norm_num [abs_le] at hback
    refine ⟨b, hb, ?_⟩
    rw [abs_le]
    constructor <;> linarith

theorem exists_shown_quarter (hlt : q < 2 ^ 40) :
    ∃ r, (x / 4).shown.toRat? = some r ∧ |4 * r - q| < 1 / 400 := by
  have hpos : (0 : Rat) < 4 := by norm_num
  have hrange : q / 4 < 2 ^ (38 : Int) := by
    norm_num at hlt ⊢
    linarith
  obtain ⟨a, ha, hquarter⟩ :=
    exists_toRat?_div hx hq toRat?_four hpos hrange (by norm_num) (by norm_num)
  norm_num [abs_le] at hquarter
  have hlt' : a < 2 ^ 39 := by
    norm_num at hlt ⊢
    linarith
  obtain ⟨r, hr, hshown⟩ := abs_shown_sub_le (hx.div toRat?_four hpos) ha hlt'
  rw [abs_le] at hshown
  refine ⟨r, hr, ?_⟩
  rw [abs_lt]
  constructor <;> linarith

end Range

/-- **Numbers whose quarters are shown alike are close.** -/
theorem abs_sub_lt_of_shown_quarter_eq {x y : Binary64} (hx : x.IsMagnitude) (hy : y.IsMagnitude)
    (h : (x / 4).shown = (y / 4).shown) {p q : Rat} (hp : x.toRat? = some p) (hq : y.toRat? = some q)
    (hp' : p < 2 ^ 40) (hq' : q < 2 ^ 40) : |p - q| < 1 / 200 := by
  obtain ⟨r, hr, hrp⟩ := exists_shown_quarter hx hp hp'
  obtain ⟨s, hs, hsq⟩ := exists_shown_quarter hy hq hq'
  rw [h, hs, Option.some.injEq] at hr
  subst hr
  rw [abs_lt] at hrp hsq ⊢
  constructor <;> linarith

/-! ### Back from what is shown -/

theorem nearest_eq_of_toRat?_round {q r : Rat} (h : (round false q).toRat? = some r) : nearest q = r := by
  unfold round at h
  dsimp only at h
  rw [if_neg (by simp)] at h
  split at h
  · exact Option.some.inj h
  · cases h

section Inversion

variable {x : Binary64} (hx : x.IsMagnitude) {r : Rat} {k : Int} (hr : r < 2 ^ k) (hk : -1074 ≤ k)

include hx hr hk

theorem exists_toRat?_of_mul {c : Binary64} {s : Rat} (hc : c.toRat? = some s) (hs : 0 < s)
    (h : (x * c).toRat? = some r) : ∃ q, x.toRat? = some q ∧ q * s < 2 ^ k := by
  cases hx with
  | @finite q hrep hq =>
    rw [mul_eq_round (.finite hrep hq) hc hs rfl] at h
    obtain rfl := nearest_eq_of_toRat?_round h
    exact ⟨q, rfl, lt_of_nearest_lt hr hk⟩
  | infinite =>
    rw [infinite_mul hc hs] at h
    cases h

theorem exists_toRat?_of_div {c : Binary64} {s : Rat} (hc : c.toRat? = some s) (hs : 0 < s)
    (h : (x / c).toRat? = some r) : ∃ q, x.toRat? = some q ∧ q / s < 2 ^ k := by
  cases hx with
  | @finite q hrep hq =>
    rw [div_eq_round (.finite hrep hq) hc hs rfl] at h
    obtain rfl := nearest_eq_of_toRat?_round h
    exact ⟨q, rfl, lt_of_nearest_lt hr hk⟩
  | infinite =>
    rw [infinite_div hc hs] at h
    cases h

theorem exists_toRat?_of_roundToWhole (h : x.roundToWhole.toRat? = some r) :
    ∃ q, x.toRat? = some q ∧ q < 2 ^ k + 1 / 2 := by
  cases hx with
  | @finite q hrep hq =>
    rw [roundToWhole_eq_round (.finite hrep hq) rfl] at h
    obtain rfl := nearest_eq_of_toRat?_round h
    have hwhole : (halfAway q : Rat) < 2 ^ k := lt_of_nearest_lt hr hk
    have hnear := abs_le.mp (abs_halfAway_sub_le hq)
    exact ⟨q, rfl, by linarith⟩
  | infinite => cases h

end Inversion

/-- Only small numbers are shown as small ones. -/
theorem exists_toRat?_of_shown {x : Binary64} (hx : x.IsMagnitude) {r : Rat} (hr : r < 2 ^ (6 : Int))
    (h : x.shown.toRat? = some r) : ∃ q, x.toRat? = some q ∧ q < 2 ^ (8 : Int) := by
  unfold Binary64.shown at h
  split at h
  · exact ⟨r, h, by norm_num at hr ⊢; linarith⟩
  · have hpos : (0 : Rat) < 1000 := by norm_num
    have hscaled := hx.mul toRat?_thousand hpos
    obtain ⟨b, hb, hquot⟩ :=
      exists_toRat?_of_div hscaled.roundToWhole hr (by norm_num) toRat?_thousand hpos h
    have hb' : b < 2 ^ (16 : Int) := by
      norm_num at hquot ⊢
      linarith
    obtain ⟨a, ha, hnear⟩ := exists_toRat?_of_roundToWhole hscaled hb' (by norm_num) hb
    have ha' : a < 2 ^ (17 : Int) := by
      norm_num at hnear ⊢
      linarith
    obtain ⟨q, hq, hproduct⟩ := exists_toRat?_of_mul hx ha' (by norm_num) toRat?_thousand hpos ha
    exact ⟨q, hq, by norm_num at hproduct ⊢; linarith⟩

theorem exists_toRat?_of_shown_quarter {x : Binary64} (hx : x.IsMagnitude) {r : Rat}
    (hr : r < 2 ^ (6 : Int)) (h : (x / 4).shown.toRat? = some r) :
    ∃ q, x.toRat? = some q ∧ q < 2 ^ 40 := by
  have hpos : (0 : Rat) < 4 := by norm_num
  obtain ⟨a, ha, hquarter⟩ := exists_toRat?_of_shown (hx.div toRat?_four hpos) hr h
  obtain ⟨q, hq, hquot⟩ := exists_toRat?_of_div hx hquarter (by norm_num) toRat?_four hpos ha
  exact ⟨q, hq, by norm_num at hquot ⊢; linarith⟩

/-! ### Eighths -/

theorem nearest_eighth {n : Nat} (hn : n < 2 ^ 30) : nearest (n / 8) = n / 8 := by
  have hbits : |(n : Int)| ≤ 2 ^ 53 := by
    rw [Nat.abs_cast]
    exact_mod_cast (hn.trans (by norm_num)).le
  have hround := nearest_mul_zpow hbits (e := -3) (by norm_num)
  have heighth : ((n : Int) : Rat) * 2 ^ (-3 : Int) = n / 8 := by
    rw [Int.cast_natCast, zpow_neg, ← div_eq_mul_inv]
    norm_num
  rwa [heighth] at hround

/-- A whole number that is close to some eighths is as many eighths. -/
theorem eq_eighth_of_near {m : Int} {n : Nat} (h : |(m : Rat) - n / 8| < 1 / 3000) :
    (m : Rat) = n / 8 := by
  rw [abs_lt] at h
  have hlower : ((8 * m : Int) : Rat) < ((n + 1 : Int) : Rat) := by
    push_cast
    linarith
  have hupper : ((n - 1 : Int) : Rat) < ((8 * m : Int) : Rat) := by
    push_cast
    linarith
  have heq : 8 * m = n := by
    have hlower' := Int.cast_lt.mp hlower
    have hupper' := Int.cast_lt.mp hupper
    omega
  have hcast : (8 : Rat) * m = n := by exact_mod_cast heq
  linarith

/-- What is close to some eighths is shown as these: they are whole thousandths. -/
theorem toRat?_shown_of_near {x : Binary64} (hx : x.IsMagnitude) {q : Rat} (hq : x.toRat? = some q)
    {n : Nat} (hn : n < 2 ^ 30) (h : |q - n / 8| < 1 / 3000) :
    x.shown.toRat? = some ((n : Rat) / 8) := by
  have hnRat : (n : Rat) < 1073741824 := by exact_mod_cast hn
  unfold Binary64.shown
  split
  · next hinteger =>
    obtain ⟨m, hm⟩ := Option.isSome_iff_exists.mp hinteger
    have hvalue := toRat?_of_toInt? (toInt?_of_asInteger? hm)
    rw [hq, Option.some.injEq] at hvalue
    subst hvalue
    rw [hq, eq_eighth_of_near h]
  · have hpos : (0 : Rat) < 1000 := by norm_num
    have hscaled := hx.mul toRat?_thousand hpos
    rw [abs_lt] at h
    have hrange : q * 1000 < 2 ^ (38 : Int) := by
      norm_num
      linarith
    obtain ⟨a, ha, hscale⟩ :=
      exists_toRat?_mul hx hq toRat?_thousand hpos hrange (by norm_num) (by norm_num)
    norm_num [abs_le] at hscale
    -- An eighth is 125 thousandths.
    have hwhole : halfAway a = (125 * n : Nat) := by
      refine halfAway_eq (hscaled.nonneg ha) ?_
      push_cast
      rw [abs_lt]
      constructor <;> linarith
    have hlt : (halfAway a : Rat) < 2 ^ (50 : Int) := by
      rw [hwhole]
      norm_num
      linarith
    have hback := toRat?_roundToWhole hscaled ha hlt
    have heighth : ((125 * n : Nat) : Rat) / 1000 = n / 8 := by
      push_cast
      ring
    have hsmall : |(n : Rat) / 8| < 2 ^ (30 : Int) := by
      rw [abs_of_nonneg (by positivity)]
      norm_num
      linarith
    rw [div_eq_round hscaled.roundToWhole toRat?_thousand hpos hback, hwhole, Int.cast_natCast, heighth,
      toRat?_round hsmall (by norm_num) (by norm_num), nearest_eighth hn]

/-- What is close to an even number has a sixteenth that is shown as that of the number. -/
theorem toRat?_shown_sixteenth {x : Binary64} (hx : x.IsMagnitude) {q : Rat} (hq : x.toRat? = some q)
    {n : Nat} (hn : n < 2 ^ 30) (h : |q - 2 * n| < 1 / 200) :
    (x / 16).shown.toRat? = some ((n : Rat) / 8) := by
  have hnRat : (n : Rat) < 1073741824 := by exact_mod_cast hn
  have hpos : (0 : Rat) < 16 := by norm_num
  rw [abs_lt] at h
  have hrange : q / 16 < 2 ^ (28 : Int) := by
    norm_num
    linarith
  obtain ⟨a, ha, hquot⟩ :=
    exists_toRat?_div hx hq toRat?_sixteen hpos hrange (by norm_num) (by norm_num)
  norm_num [abs_le] at hquot
  refine toRat?_shown_of_near (hx.div toRat?_sixteen hpos) ha hn ?_
  rw [abs_lt]
  constructor <;> linarith

end Handoff.Binary64
