import Handoff.Binary64.Basic
import Mathlib.Algebra.Order.Field.Power
import Mathlib.Data.Rat.Floor
import Mathlib.Tactic.Linarith
import Mathlib.Tactic.NormNum
import Mathlib.Tactic.Positivity
import Mathlib.Tactic.Ring

/-!
# What rounding leaves as it is

Rounding gives at most `2 ^ 53` times the power of two of the last significant
bit (`nearest_eq_mul`). What it gives has its own last bit at the same place or
further down, with one exception: where all bits were rounded up there is one bit
more in front, and the last one is zero. Either way the result is a multiple of
its own last bit, so rounding leaves it as it is (`nearest_nearest`). A result in
range is therefore a finite number, as that of every integer of 64 bits is
(`isFinite_ofInt`).

A number is rounded by at most half of its last bit, which for a number below
`2 ^ k` is `2 ^ (k - 54)` (`abs_nearest_sub_le`). It is not rounded across a power
of two, neither up (`abs_nearest_le`) nor down (`lt_of_nearest_lt`).
-/

namespace Handoff

namespace Rounding

/-! ### The leading bit -/

theorem abs_eq_abs (q : Rat) : q.abs = |q| := by
  rw [Rat.abs]
  split
  · next h => rw [abs_of_nonneg h]
  · next h => rw [abs_of_neg (not_le.mp h)]

theorem abs_eq_natAbs_div (q : Rat) : |q| = (q.num.natAbs : Rat) / q.den := by
  rw [Rat.abs_def, Rat.divInt_eq_div, Int.cast_natCast, Int.cast_natCast]

/-- A natural number lies between two powers of two. -/
theorem two_zpow_log2 {n : Nat} (hn : n ≠ 0) :
    (2 : Rat) ^ (n.log2 : Int) ≤ n ∧ (n : Rat) < 2 ^ ((n.log2 : Int) + 1) := by
  constructor
  · rw [zpow_natCast]
    exact_mod_cast Nat.log2_self_le hn
  · rw [zpow_add_one₀ two_ne_zero, zpow_natCast, ← pow_succ]
    exact_mod_cast Nat.lt_log2_self

/-- A number is at least the power of two of its leading bit and less than the next one. -/
theorem leadingExponent_spec {q : Rat} (hq : q ≠ 0) :
    (2 : Rat) ^ leadingExponent q ≤ |q| ∧ |q| < 2 ^ (leadingExponent q + 1) := by
  have hnum := two_zpow_log2 (Int.natAbs_ne_zero.mpr (Rat.num_ne_zero.mpr hq))
  have hden := two_zpow_log2 q.den_ne_zero
  have hpos : (0 : Rat) < q.den := by exact_mod_cast q.den_pos
  -- The estimate is right or one too large.
  have hupper : |q| < 2 ^ ((q.num.natAbs.log2 : Int) - q.den.log2 + 1) := by
    rw [abs_eq_natAbs_div, div_lt_iff₀ hpos]
    calc (q.num.natAbs : Rat) < 2 ^ ((q.num.natAbs.log2 : Int) + 1) := hnum.2
      _ = 2 ^ ((q.num.natAbs.log2 : Int) - q.den.log2 + 1) * 2 ^ (q.den.log2 : Int) := by
        rw [← zpow_add₀ two_ne_zero]
        congr 1
        omega
      _ ≤ _ := mul_le_mul_of_nonneg_left hden.1 (by positivity)
  have hlower : (2 : Rat) ^ ((q.num.natAbs.log2 : Int) - q.den.log2 - 1) ≤ |q| := by
    rw [abs_eq_natAbs_div, le_div_iff₀ hpos]
    calc _ ≤ (2 : Rat) ^ ((q.num.natAbs.log2 : Int) - q.den.log2 - 1)
          * 2 ^ ((q.den.log2 : Int) + 1) := mul_le_mul_of_nonneg_left hden.2.le (by positivity)
      _ = 2 ^ (q.num.natAbs.log2 : Int) := by
        rw [← zpow_add₀ two_ne_zero]
        congr 1
        omega
      _ ≤ q.num.natAbs := hnum.1
  rw [leadingExponent, abs_eq_abs]
  split
  · next h => exact ⟨h, hupper⟩
  · next h => exact ⟨hlower, by rw [sub_add_cancel]; exact not_le.mp h⟩

/-- A number below a power of two has its leading bit below it. -/
theorem leadingExponent_lt {q : Rat} (hq : q ≠ 0) {k : Int} (h : |q| < 2 ^ k) :
    leadingExponent q < k :=
  (zpow_lt_zpow_iff_right₀ one_lt_two).mp (lt_of_le_of_lt (leadingExponent_spec hq).1 h)

/-! ### The nearest integer -/

theorem halfEven_eq_floor_or (q : Rat) : halfEven q = ⌊q⌋ ∧ q - ⌊q⌋ ≤ 1 / 2
    ∨ halfEven q = ⌊q⌋ + 1 ∧ 1 / 2 ≤ q - ⌊q⌋ := by
  have hfloor : q.floor = ⌊q⌋ := rfl
  rw [halfEven, hfloor]
  split
  · next h => exact .inl ⟨rfl, h.le⟩
  · next h =>
    split
    · next h' => exact .inr ⟨rfl, h'.le⟩
    · next h' =>
      split
      · exact .inl ⟨rfl, not_lt.mp h'⟩
      · exact .inr ⟨rfl, not_lt.mp h⟩

/-- An integer is the nearest to itself. -/
theorem halfEven_intCast (n : Int) : halfEven n = n := by
  rcases halfEven_eq_floor_or n with ⟨h, -⟩ | ⟨-, hexcess⟩
  · rw [h, Int.floor_intCast]
  · norm_num at hexcess

theorem abs_halfEven_sub_le (q : Rat) : |(halfEven q : Rat) - q| ≤ 1 / 2 := by
  have hfloor := Int.floor_le q
  have hceil := Int.lt_floor_add_one q
  rcases halfEven_eq_floor_or q with ⟨h, hexcess⟩ | ⟨h, hexcess⟩
  · rw [h, abs_le]
    constructor <;> linarith
  · rw [h, abs_le, Int.cast_add, Int.cast_one]
    constructor <;> linarith

/-- The nearest integer does not leave bounds that are integers. -/
theorem abs_halfEven_le {q : Rat} {n : Int} (h : |q| ≤ n) : |halfEven q| ≤ n := by
  have hnear := abs_le.mp (abs_halfEven_sub_le q)
  have hq := abs_le.mp h
  have hupper : (halfEven q : Rat) < n + 1 := by linarith
  have hlower : -(n : Rat) - 1 < halfEven q := by linarith
  have hupper' : halfEven q < n + 1 := by exact_mod_cast hupper
  have hlower' : -n - 1 < halfEven q := by exact_mod_cast hlower
  rw [abs_le]
  omega

/-- Nor does it leave a lower bound that is an integer. -/
theorem le_halfEven {q : Rat} {n : Int} (h : (n : Rat) ≤ q) : n ≤ halfEven q := by
  have hfloor : n ≤ ⌊q⌋ := Int.le_floor.mpr h
  rcases halfEven_eq_floor_or q with ⟨hround, -⟩ | ⟨hround, -⟩ <;> omega

/-! ### Rounding twice -/

/-- The last bit of a number below `2 ^ (53 + e)` stands at `e` or further down. -/
theorem lastExponent_le {q : Rat} (hq : q ≠ 0) {e : Int} (h : |q| < 2 ^ (53 + e))
    (he : -1074 ≤ e) : lastExponent q ≤ e := by
  have hlead := leadingExponent_lt hq h
  unfold lastExponent
  omega

/-- A number of 53 bits is left as it is. -/
theorem nearest_mul_zpow_of_lt {m e : Int} (hm : |m| < 2 ^ 53) (he : -1074 ≤ e) :
    nearest (m * 2 ^ e) = m * 2 ^ e := by
  have hpos : (0 : Rat) < 2 ^ e := by positivity
  unfold nearest
  split
  · next hzero => exact hzero.symm
  · next hne =>
    have hlt : |(m : Rat) * 2 ^ e| < 2 ^ (53 + e) := by
      rw [abs_mul, abs_of_pos hpos, zpow_add₀ two_ne_zero]
      exact mul_lt_mul_of_pos_right (by exact_mod_cast hm) hpos
    have hlast : lastExponent (m * 2 ^ e) ≤ e := lastExponent_le hne hlt he
    have hunit : (2 : Rat) ^ lastExponent (m * 2 ^ e) ≠ 0 := zpow_ne_zero _ two_ne_zero
    -- So the number is a multiple of its last bit.
    have hquot : (m : Rat) * 2 ^ e / 2 ^ lastExponent (m * 2 ^ e)
        = ((m * 2 ^ (e - lastExponent (m * 2 ^ e)).toNat : Int) : Rat) := by
      rw [mul_div_assoc, ← zpow_sub₀ two_ne_zero, Int.cast_mul, Int.cast_pow, Int.cast_ofNat,
        ← zpow_natCast, Int.toNat_of_nonneg (sub_nonneg.mpr hlast)]
    dsimp only
    rw [hquot, halfEven_intCast, ← hquot, div_mul_cancel₀ _ hunit]

/-- So is the next power of two, which has a bit more in front and a zero at the end. -/
theorem nearest_mul_zpow {m e : Int} (hm : |m| ≤ 2 ^ 53) (he : -1074 ≤ e) :
    nearest (m * 2 ^ e) = m * 2 ^ e := by
  rcases lt_or_eq_of_le hm with hlt | heq
  · exact nearest_mul_zpow_of_lt hlt he
  · obtain ⟨half, rfl⟩ : ∃ half : Int, m = half * 2 := by
      rcases (abs_eq (by norm_num)).mp heq with rfl | rfl
      · exact ⟨2 ^ 52, by norm_num⟩
      · exact ⟨-2 ^ 52, by norm_num⟩
    have hhalf : |half| < 2 ^ 53 := by
      rw [abs_mul, abs_two] at heq
      omega
    have hshift : ((half * 2 : Int) : Rat) * 2 ^ e = half * 2 ^ (1 + e) := by
      rw [Int.cast_mul, Int.cast_ofNat, mul_assoc, ← zpow_one_add₀ two_ne_zero]
    rw [hshift]
    exact nearest_mul_zpow_of_lt hhalf (by omega)

/-- An integer of 53 bits is left as it is. -/
theorem nearest_intCast {n : Int} (h : |n| ≤ 2 ^ 53) : nearest n = n := by
  have hbits := nearest_mul_zpow h (e := 0) (by norm_num)
  rwa [zpow_zero, mul_one] at hbits

/-- Rounding gives a multiple of the last bit, of 53 bits or the next power of two. -/
theorem nearest_eq_mul {q : Rat} (hq : q ≠ 0) :
    ∃ m : Int, |m| ≤ 2 ^ 53 ∧ nearest q = m * 2 ^ lastExponent q := by
  have hpos : (0 : Rat) < 2 ^ lastExponent q := by positivity
  have hlast : leadingExponent q + 1 ≤ 53 + lastExponent q := by
    unfold lastExponent
    omega
  have hquot : |q / 2 ^ lastExponent q| ≤ ((2 ^ 53 : Int) : Rat) := by
    rw [abs_div, abs_of_pos hpos, div_le_iff₀ hpos]
    calc |q| ≤ 2 ^ (leadingExponent q + 1) := (leadingExponent_spec hq).2.le
      _ ≤ 2 ^ (53 + lastExponent q) := zpow_le_zpow_right₀ one_le_two hlast
      _ = ((2 ^ 53 : Int) : Rat) * 2 ^ lastExponent q := by
        rw [zpow_add₀ two_ne_zero]
        norm_num
  exact ⟨_, abs_halfEven_le hquot, by rw [nearest, if_neg hq]⟩

/-- **Rounding leaves what it gives as it is.** -/
theorem nearest_nearest (q : Rat) : nearest (nearest q) = nearest q := by
  by_cases hq : q = 0
  · simp [hq, nearest]
  · obtain ⟨m, hm, h⟩ := nearest_eq_mul hq
    rw [h]
    exact nearest_mul_zpow hm (le_max_right _ _)

/-- Rounding does not leave bounds that are powers of two. -/
theorem abs_nearest_le {q : Rat} {k : Int} (h : |q| < 2 ^ k) (hk : -1021 ≤ k) :
    |nearest q| ≤ 2 ^ k := by
  by_cases hq : q = 0
  · simp only [hq, nearest, if_pos, abs_zero]
    positivity
  · obtain ⟨m, hm, hround⟩ := nearest_eq_mul hq
    have hpos : (0 : Rat) < 2 ^ lastExponent q := by positivity
    have hmRat : |(m : Rat)| ≤ 2 ^ (53 : Int) := by exact_mod_cast hm
    have hlast : 53 + lastExponent q ≤ k := by
      have hlead := leadingExponent_lt hq h
      unfold lastExponent
      omega
    calc |nearest q| = |(m : Rat)| * 2 ^ lastExponent q := by rw [hround, abs_mul, abs_of_pos hpos]
      _ ≤ 2 ^ (53 : Int) * 2 ^ lastExponent q := mul_le_mul_of_nonneg_right hmRat hpos.le
      _ = 2 ^ (53 + lastExponent q) := (zpow_add₀ two_ne_zero _ _).symm
      _ ≤ 2 ^ k := zpow_le_zpow_right₀ one_le_two hlast

/-- A number that is rounded to less than a power of two is less. -/
theorem lt_of_nearest_lt {q : Rat} {k : Int} (h : nearest q < 2 ^ k) (hk : -1074 ≤ k) : q < 2 ^ k := by
  by_contra hge
  rw [not_lt] at hge
  have hqpos : 0 < q := lt_of_lt_of_le (by positivity) hge
  have hspec := leadingExponent_spec hqpos.ne'
  rw [abs_of_pos hqpos] at hspec
  have hlead : k ≤ leadingExponent q := by
    have hlt : (2 : Rat) ^ k < 2 ^ (leadingExponent q + 1) := lt_of_le_of_lt hge hspec.2
    have hexp := (zpow_lt_zpow_iff_right₀ one_lt_two).mp hlt
    omega
  have hlast : lastExponent q ≤ leadingExponent q := by
    unfold lastExponent
    omega
  have hunit : (0 : Rat) < 2 ^ lastExponent q := by positivity
  -- The leading bit counts a whole number of last ones, so rounding does not go below it.
  have hpower : (((2 ^ (leadingExponent q - lastExponent q).toNat : Int) : Rat)) * 2 ^ lastExponent q
      = 2 ^ leadingExponent q := by
    rw [Int.cast_pow, Int.cast_ofNat, ← zpow_natCast, ← zpow_add₀ two_ne_zero]
    congr 1
    omega
  have hkept : (2 : Rat) ^ leadingExponent q ≤ nearest q := by
    have hbits : 2 ^ (leadingExponent q - lastExponent q).toNat ≤ halfEven (q / 2 ^ lastExponent q) := by
      apply le_halfEven
      rw [le_div_iff₀ hunit, hpower]
      exact hspec.1
    rw [nearest, if_neg hqpos.ne', ← hpower]
    exact mul_le_mul_of_nonneg_right (by exact_mod_cast hbits) hunit.le
  have hmono : (2 : Rat) ^ k ≤ 2 ^ leadingExponent q := zpow_le_zpow_right₀ one_le_two hlead
  exact absurd h (not_lt.mpr (hmono.trans hkept))

/-! ### How far rounding goes -/

theorem nearest_nonneg {q : Rat} (hq : 0 ≤ q) : 0 ≤ nearest q := by
  unfold nearest
  split
  · exact le_refl _
  · have hpos : (0 : Rat) < 2 ^ lastExponent q := by positivity
    have hnear := abs_le.mp (abs_halfEven_sub_le (q / 2 ^ lastExponent q))
    have hquot : 0 ≤ q / 2 ^ lastExponent q := div_nonneg hq hpos.le
    have hint : (-1 : Rat) < halfEven (q / 2 ^ lastExponent q) := by linarith
    have hint' : -1 < halfEven (q / 2 ^ lastExponent q) := by exact_mod_cast hint
    exact mul_nonneg (by exact_mod_cast Int.lt_iff_add_one_le.mp hint') hpos.le

/-- A number below a power of two is rounded by at most half of the last of its 53 bits. -/
theorem abs_nearest_sub_le {q : Rat} {k : Int} (h : |q| < 2 ^ k) (hk : -1021 ≤ k) :
    |nearest q - q| ≤ 2 ^ (k - 54) := by
  by_cases hq : q = 0
  · simp only [hq, nearest, if_pos, sub_zero, abs_zero]
    positivity
  · have hpos : (0 : Rat) < 2 ^ lastExponent q := by positivity
    have hlast : lastExponent q ≤ k - 53 := by
      refine lastExponent_le hq ?_ (by omega)
      rwa [add_sub_cancel]
    have hsub : nearest q - q
        = ((halfEven (q / 2 ^ lastExponent q) : Rat) - q / 2 ^ lastExponent q) * 2 ^ lastExponent q := by
      rw [sub_mul, div_mul_cancel₀ _ hpos.ne', nearest, if_neg hq]
    calc |nearest q - q| ≤ 1 / 2 * 2 ^ lastExponent q := by
          rw [hsub, abs_mul, abs_of_pos hpos]
          exact mul_le_mul_of_nonneg_right (abs_halfEven_sub_le _) hpos.le
      _ ≤ 1 / 2 * 2 ^ (k - 53) :=
          mul_le_mul_of_nonneg_left (zpow_le_zpow_right₀ one_le_two hlast) (by norm_num)
      _ = 2 ^ (k - 54) := by
          rw [show k - 53 = k - 54 + 1 by ring, zpow_add_one₀ two_ne_zero]
          ring

theorem halfAway_of_nonneg {q : Rat} (hq : 0 ≤ q) : halfAway q = ⌊q + 1 / 2⌋ :=
  if_neg hq.not_gt

theorem halfAway_nonneg {q : Rat} (hq : 0 ≤ q) : 0 ≤ halfAway q := by
  rw [halfAway_of_nonneg hq]
  exact Int.floor_nonneg.mpr (by linarith)

theorem abs_halfAway_sub_le {q : Rat} (hq : 0 ≤ q) : |(halfAway q : Rat) - q| ≤ 1 / 2 := by
  have hfloor := Int.floor_le (q + 1 / 2)
  have hceil := Int.lt_floor_add_one (q + 1 / 2)
  rw [halfAway_of_nonneg hq, abs_le]
  constructor <;> linarith

/-- What is less than a half away from an integer is rounded to it. -/
theorem halfAway_eq {q : Rat} (hq : 0 ≤ q) {n : Int} (h : |q - n| < 1 / 2) : halfAway q = n := by
  rw [abs_lt] at h
  rw [halfAway_of_nonneg hq, Int.floor_eq_iff]
  constructor <;> linarith

end Rounding

namespace Binary64

/-- What is in range after rounding is a finite number. -/
theorem isFinite_round {q : Rat} (negative : Bool) (h : |Rounding.nearest q| < bound) :
    (round negative q).isFinite = true := by
  have hrep : Representable (Rounding.nearest q) :=
    ⟨Rounding.nearest_nearest q, by rwa [Rounding.abs_eq_abs]⟩
  unfold round
  dsimp only
  split
  · rfl
  · rfl

/-- **An integer of 64 bits is a finite number.** -/
theorem isFinite_ofInt {n : Int} (h : |n| < 2 ^ 64) : (ofInt n).isFinite = true := by
  have hn : |(n : Rat)| < 2 ^ (64 : Int) := by exact_mod_cast h
  refine isFinite_round false ?_
  calc |Rounding.nearest n| ≤ 2 ^ (64 : Int) := Rounding.abs_nearest_le hn (by norm_num)
    _ < bound := zpow_lt_zpow_right₀ one_lt_two (by norm_num)

end Binary64

end Handoff
