import Handoff.Binary64.Layout
import Handoff.Proofs.Binary64.Digits
import Handoff.Proofs.Binary64.Rounding
import Handoff.Proofs.Text.Search
import Mathlib.Data.Bool.AllAny
import Mathlib.Data.Nat.Prime.Basic
import Mathlib.Data.Rat.Lemmas

/-!
# Printed numbers are told apart

A number printed with all its places is read as the decimal that it was printed
from (`placesValue_magnitude`), and the number nearest to that decimal is the number
itself (`Decimal.nearest_toRat_shortest`). So no two numbers have the same text
(`NumberLayout.text_injective`). A whole number below `10 ^ 15` is printed as its
digits (`NumberLayout.text_natCast`).
-/

namespace Handoff

open Rounding

/-! ### Numbers from places -/

/-- The number that digits with at most one point among them stand for. -/
def placesValue (t : List Char) : Rat :=
  (Nat.ofDigitChars 10 (t.filter (· ≠ '.')) 0 : Rat)
    * 10 ^ (-(Text.behind '.' t).length : Int)

theorem AllDigits.point_notMem {t : List Char} (h : AllDigits t) : '.' ∉ t :=
  fun hmem => absurd (h _ hmem) (by decide)

theorem AllDigits.filter_eq {t : List Char} (h : AllDigits t) : t.filter (· ≠ '.') = t := by
  refine List.filter_eq_self.mpr fun c hc => decide_eq_true ?_
  rintro rfl
  exact h.point_notMem hc

theorem placesValue_whole {whole : List Char} (h : AllDigits whole) :
    placesValue whole = Nat.ofDigitChars 10 whole 0 := by
  have hbehind := Text.behind_append h.point_notMem []
  rw [List.append_nil] at hbehind
  rw [placesValue, h.filter_eq, hbehind]
  simp [Text.behind]

theorem placesValue_point {whole fraction : List Char} (hwhole : AllDigits whole)
    (hfraction : AllDigits fraction) : placesValue (whole ++ '.' :: fraction)
      = (Nat.ofDigitChars 10 (whole ++ fraction) 0 : Rat) * 10 ^ (-fraction.length : Int) := by
  have hfilter : (whole ++ '.' :: fraction).filter (· ≠ '.') = whole ++ fraction := by
    rw [List.filter_append, hwhole.filter_eq, List.filter_cons_of_neg (by decide), hfraction.filter_eq]
  rw [placesValue, hfilter, Text.behind_append hwhole.point_notMem, Text.behind_cons_self]

/-- A point and a zero behind a whole number leave it as it is. -/
theorem placesValue_point_zero {whole : List Char} (h : AllDigits whole) :
    placesValue (whole ++ ['.', '0']) = placesValue whole := by
  have hvalue : Nat.ofDigitChars 10 (whole ++ ['0']) 0 = 10 * Nat.ofDigitChars 10 whole 0 := by
    rw [Nat.ofDigitChars_append]
    exact Nat.ofDigitChars_replicate_zero (n := 1)
  have hzero : AllDigits ['0'] := allDigits_replicate 1
  rw [placesValue_point h hzero, placesValue_whole h, hvalue, Nat.cast_mul, mul_right_comm]
  norm_num

/-- Digits, with a point between two of them or none. -/
inductive IsPlaces : List Char → Prop where
  /-- There is no point. -/
  | whole {digits : List Char} (hne : digits ≠ []) (h : AllDigits digits) : IsPlaces digits
  /-- There is a point with digits on both sides. -/
  | point {whole fraction : List Char} (hwhole : whole ≠ []) (hwhole' : AllDigits whole)
      (hfraction : fraction ≠ []) (hfraction' : AllDigits fraction) : IsPlaces (whole ++ '.' :: fraction)

theorem IsPlaces.isDigit_or_eq {t : List Char} (h : IsPlaces t) : ∀ c ∈ t, c.isDigit = true ∨ c = '.' := by
  cases h with
  | whole hne h => exact fun c hc => .inl (h c hc)
  | point hwhole hwhole' hfraction hfraction' =>
    rw [List.forall_mem_append, List.forall_mem_cons]
    exact ⟨fun c hc => .inl (hwhole' c hc), .inr rfl, fun c hc => .inl (hfraction' c hc)⟩

/-- Whatever place its last one has, digits are laid out in places. -/
theorem isPlaces_positional {digits : List Char} (hne : digits ≠ []) (h : AllDigits digits) (e : Int) :
    IsPlaces (NumberLayout.plain.positional digits e) := by
  unfold NumberLayout.positional
  dsimp only
  split
  · have hfraction : AllDigits (List.replicate (-e - 1).toNat '0' ++ digits) :=
      .append (allDigits_replicate _) h
    exact .point (List.cons_ne_nil '0' []) (allDigits_replicate 1) (List.append_ne_nil_of_right_ne_nil _ hne)
      hfraction
  · split
    · rw [NumberLayout.plain, List.append_nil]
      exact .whole (List.append_ne_nil_of_left_ne_nil hne _) (h.append (allDigits_replicate _))
    · next hlen =>
      rw [List.append_assoc, List.singleton_append]
      refine .point ?_ (fun c hc => h c (List.mem_of_mem_take hc)) ?_ fun c hc => h c (List.mem_of_mem_drop hc)
      · simpa using hne
      · rw [ne_eq, List.drop_eq_nil_iff]
        exact hlen

/-- The place that the last of some digits has counts a power of ten, whether or not a whole number
ends with a point and a zero. -/
theorem placesValue_positional {layout : NumberLayout}
    (hending : layout.wholeEnding = [] ∨ layout.wholeEnding = ['.', '0']) {digits : List Char}
    (h : AllDigits digits) (e : Int) : placesValue (layout.positional digits e)
      = (Nat.ofDigitChars 10 digits 0 : Rat) * 10 ^ (e + 1 - digits.length) := by
  unfold NumberLayout.positional
  dsimp only
  split
  · next hneg =>
    have hzero : AllDigits ['0'] := allDigits_replicate 1
    have hzeros : AllDigits (List.replicate (-e - 1).toNat '0') := allDigits_replicate _
    have hvalue : Nat.ofDigitChars 10 (['0'] ++ (List.replicate (-e - 1).toNat '0' ++ digits)) 0
        = Nat.ofDigitChars 10 digits 0 := by
      rw [Nat.ofDigitChars_append, Nat.ofDigitChars_append, Nat.ofDigitChars_replicate_zero]
      rfl
    change placesValue (['0'] ++ '.' :: (List.replicate (-e - 1).toNat '0' ++ digits)) = _
    rw [placesValue_point hzero (hzeros.append h), hvalue, List.length_append, List.length_replicate]
    congr 2
    omega
  · next hneg =>
    split
    · next hlen =>
      have hzeros : AllDigits (List.replicate (e.toNat + 1 - digits.length) '0') := allDigits_replicate _
      have hwhole : placesValue (digits ++ List.replicate (e.toNat + 1 - digits.length) '0')
          = (Nat.ofDigitChars 10 digits 0 : Rat) * 10 ^ (e + 1 - digits.length) := by
        rw [placesValue_whole (h.append hzeros), Nat.ofDigitChars_append, Nat.ofDigitChars_replicate_zero,
          Nat.cast_mul, mul_comm, Nat.cast_pow, Nat.cast_ofNat, ← zpow_natCast]
        congr 2
        omega
      rcases hending with hending | hending
      · rw [hending, List.append_nil, hwhole]
      · rw [hending, placesValue_point_zero (h.append hzeros), hwhole]
    · next hlen =>
      have htake : AllDigits (digits.take (e.toNat + 1)) := fun c hc => h c (List.mem_of_mem_take hc)
      have hdrop : AllDigits (digits.drop (e.toNat + 1)) := fun c hc => h c (List.mem_of_mem_drop hc)
      rw [List.append_assoc, List.singleton_append, placesValue_point htake hdrop, List.take_append_drop,
        List.length_drop]
      congr 2
      omega

/-! ### Decimals -/

namespace Decimal

theorem toRat_trimZeros (limit : Nat) (d : Decimal) : (trimZeros limit d).toRat = d.toRat := by
  induction limit generalizing d with
  | zero => rfl
  | succ limit ih =>
    unfold trimZeros
    split
    · next h =>
      have hten : d.significand = d.significand / 10 * 10 := by omega
      rw [ih, toRat, toRat, zpow_add_one₀ (by norm_num)]
      conv_rhs => rw [hten, Nat.cast_mul]
      push_cast
      ring
    · rfl

/-- A number that rounding leaves as it is has a power of two for its denominator. -/
theorem exists_den_eq {q : Rat} (h : nearest q = q) : ∃ places, q.den = 2 ^ places := by
  by_cases hq : q = 0
  · exact ⟨0, by rw [hq]; rfl⟩
  · obtain ⟨m, -, hround⟩ := nearest_eq_mul hq
    rw [h] at hround
    generalize lastExponent q = e at hround
    -- Where the last bit counts a fraction, the denominator is at most that of the fraction.
    have hquot : q = Rat.divInt (m * 2 ^ e.toNat) (2 ^ (-e).toNat) := by
      rw [Rat.divInt_eq_div, eq_div_iff (by positivity), hround]
      push_cast
      rw [mul_assoc, ← zpow_natCast, ← zpow_natCast, ← zpow_add₀ two_ne_zero]
      congr 2
      omega
    have hdvd : q.den ∣ 2 ^ (-e).toNat := by
      have hint := Rat.den_dvd (m * 2 ^ e.toNat) (2 ^ (-e).toNat)
      rw [← hquot] at hint
      exact_mod_cast hint
    obtain ⟨places, -, hden⟩ := (Nat.dvd_prime_pow Nat.prime_two).mp hdvd
    exact ⟨places, hden⟩

/-- All digits of a number make the number. -/
theorem toRat_exact {q : Rat} (hq : 0 < q) (h : nearest q = q) : (exact q).toRat = q := by
  obtain ⟨places, hden⟩ := exists_den_eq h
  have hplaces : q.den.log2 = places := by rw [hden, Nat.log2_two_pow]
  -- With as many places as the denominator has bits, the number is an integer.
  have hwhole : q * (10 : Rat) ^ places = ((q.num * 5 ^ places : Int) : Rat) := by
    have hten : (10 : Rat) ^ places = q.den * 5 ^ places := by
      rw [hden, Nat.cast_pow, ← mul_pow]
      norm_num
    rw [hten, ← mul_assoc, Rat.mul_den_eq_num]
    push_cast
    rfl
  have hnonneg : 0 ≤ q.num * 5 ^ places := mul_nonneg (Rat.num_nonneg.mpr hq.le) (by positivity)
  rw [exact, toRat_trimZeros, toRat, hplaces, hwhole, Rat.floor_intCast, ← Int.cast_natCast,
    Int.toNat_of_nonneg hnonneg, ← hwhole, mul_assoc, zpow_neg, zpow_natCast,
    mul_inv_cancel₀ (by positivity), mul_one]

/-- The digits that a number may have to so many places behind the first: not zero, and rounding to it. -/
def digitsAt? (tie : TieRule) (q : Rat) (more : Nat) : Option Decimal :=
  (neighbours tie q (leadingPower q - more)).find? fun d =>
    decide (d.significand ≠ 0 ∧ nearest d.toRat = q)

theorem nearest_of_digitsAt? {tie : TieRule} {q : Rat} {more : Nat} {d : Decimal}
    (h : digitsAt? tie q more = some d) : d.significand ≠ 0 ∧ nearest d.toRat = q := by
  have hd := List.find?_some h
  exact of_decide_eq_true hd

theorem shortest_eq (tie : TieRule) (q : Rat) : shortest tie q =
    match (List.range 17).findSome? (digitsAt? tie q) with
    | some d => trimZeros 1 d
    | none => exact q := rfl

/-- The shortest digits of a number are read as the number. -/
theorem nearest_toRat_shortest (tie : TieRule) {q : Rat} (hq : 0 < q) (h : nearest q = q) :
    nearest (shortest tie q).toRat = q := by
  rw [shortest_eq]
  split
  · next d hfound =>
    obtain ⟨_, _, hfind⟩ := List.exists_of_findSome?_eq_some hfound
    rw [toRat_trimZeros, (nearest_of_digitsAt? hfind).2]
  · rw [toRat_exact hq h, h]

end Decimal

/-! ### Numbers told apart -/

/-- The number is neither negative nor the negative zero, and it is a number. -/
inductive Binary64.IsMagnitude : Binary64 → Prop where
  /-- It is finite. -/
  | finite {q : Rat} (h : Representable q) (hq : 0 ≤ q) : IsMagnitude (.finite q h)
  /-- It is too large for the format. -/
  | infinite : IsMagnitude (.infinite false)

namespace NumberLayout

/-- A decimal is read from its digits. -/
theorem placesValue_digits {layout : NumberLayout}
    (hending : layout.wholeEnding = [] ∨ layout.wholeEnding = ['.', '0']) (d : Decimal) :
    placesValue (layout.positional d.digits d.leadingExponent) = d.toRat := by
  rw [Decimal.leadingExponent, Decimal.digits, placesValue_positional hending (allDigits_toDigits _),
    Nat.ofDigitChars_ten_toDigits, Decimal.toRat]
  congr 2
  omega

theorem placesValue_magnitude (q : Rat) :
    placesValue (plain.magnitude q) = (Decimal.shortest .up q).toRat :=
  placesValue_digits (.inl rfl) (Decimal.shortest .up q)

/-- What is nearest to the text of a number is the number. -/
theorem nearest_placesValue_text {q : Rat} (h : Representable q) (hq : 0 ≤ q) :
    nearest (placesValue (plain.text (.finite q h))) = q := by
  rw [text]
  split
  · next hzero =>
    rw [hzero]
    decide +kernel
  · next hzero =>
    rw [if_neg hq.not_gt, placesValue_magnitude]
    exact Decimal.nearest_toRat_shortest _ (lt_of_le_of_ne hq (Ne.symm hzero)) h.1

/-- A number above zero or zero is printed in places. -/
theorem isPlaces_text {q : Rat} (h : Representable q) (hq : 0 ≤ q) :
    IsPlaces (plain.text (.finite q h)) := by
  rw [text]
  split
  · exact .whole (List.cons_ne_nil _ _) (allDigits_replicate 1)
  · rw [if_neg hq.not_gt]
    exact isPlaces_positional Nat.toDigits_ne_nil (allDigits_toDigits _) _

/-- **No two numbers have the same text.** -/
theorem text_injective {x y : Binary64} (hx : x.IsMagnitude) (hy : y.IsMagnitude)
    (h : plain.text x = plain.text y) : x = y := by
  have hinfinite : ∀ q hq, 0 ≤ q → plain.text (.finite q hq) ≠ plain.text (.infinite false) := by
    intro q hq hnonneg heq
    have hi : 'i' ∈ plain.text (.finite q hq) := heq ▸ List.mem_cons_self
    exact absurd ((isPlaces_text hq hnonneg).isDigit_or_eq _ hi) (by decide)
  cases hx with
  | finite hp hp' =>
    cases hy with
    | finite hq hq' =>
      have hvalue := congrArg (fun t => nearest (placesValue t)) h
      rw [nearest_placesValue_text hp hp', nearest_placesValue_text hq hq'] at hvalue
      subst hvalue
      rfl
    | infinite => exact absurd h (hinfinite _ hp hp')
  | infinite =>
    cases hy with
    | finite hq hq' => exact absurd h.symm (hinfinite _ hq hq')
    | infinite => rfl

end NumberLayout

/-! ### Whole numbers -/

/-- Zeros behind the digits of an integer multiply it by ten. -/
theorem toDigits_mul_pow {n : Nat} (hn : n ≠ 0) (k : Nat) :
    Nat.toDigits 10 (n * 10 ^ k) = Nat.toDigits 10 n ++ List.replicate k '0' := by
  induction k with
  | zero => simp
  | succ k ih =>
    have hpos : 0 < n * 10 ^ k := by positivity
    have happend := Nat.toDigits_append_toDigits (b := 10) (d := 0) (by decide) hpos (by decide)
    rw [Nat.toDigits_zero, ih, List.append_assoc] at happend
    rw [List.replicate_succ', happend]
    congr 1
    ring

/-- A search that succeeds at a number succeeds there or before. -/
theorem exists_le_of_findSome?_range {β : Type} {f : Nat → Option β} {m i : Nat} (hi : i < m) {b : β}
    (hf : f i = some b) : ∃ j ≤ i, ∃ c, (List.range m).findSome? f = some c ∧ f j = some c := by
  obtain ⟨c, hc⟩ : ∃ c, (List.range m).findSome? f = some c := by
    rw [← Option.isSome_iff_exists, List.findSome?_isSome_iff]
    exact ⟨i, List.mem_range.mpr hi, by rw [hf]; rfl⟩
  obtain ⟨before, j, after, hrange, hj, hbefore⟩ := List.findSome?_eq_some_iff.mp hc
  refine ⟨j, ?_, c, hc, hj⟩
  have hmem : i ∈ before ++ j :: after := hrange ▸ List.mem_range.mpr hi
  have hascending := hrange ▸ List.pairwise_lt_range (n := m)
  rcases List.mem_append.mp hmem with h | h
  · rw [hbefore i h] at hf
    cases hf
  · rcases List.mem_cons.mp h with rfl | h
    · exact Nat.le_refl _
    · have hafter := (List.pairwise_cons.mp (List.pairwise_append.mp hascending).2.1).1
      exact (hafter i h).le

namespace Decimal

theorem exponent_le_trimZeros (limit : Nat) (d : Decimal) : d.exponent ≤ (trimZeros limit d).exponent := by
  induction limit generalizing d with
  | zero => exact le_refl _
  | succ limit ih =>
    unfold trimZeros
    split
    · exact le_trans (by simp) (ih _)
    · exact le_refl _

/-- The neighbours of a number stand at the place asked for and are at most one step greater. -/
theorem toRat_le_of_mem_neighbours {tie : TieRule} {q : Rat} (hq : 0 ≤ q) {e : Int} {d : Decimal}
    (hd : d ∈ neighbours tie q e) : d.exponent = e ∧ d.toRat ≤ q + 10 ^ e := by
  have hten : (0 : Rat) < 10 ^ e := by positivity
  have hfloor : ((q / 10 ^ e).floor.toNat : Rat) * 10 ^ e ≤ q := by
    have hnonneg : 0 ≤ (q / 10 ^ e).floor := Rat.le_floor_iff.mpr (by simpa using div_nonneg hq hten.le)
    rw [← le_div_iff₀ hten, ← Int.cast_natCast, Int.toNat_of_nonneg hnonneg]
    exact Rat.floor_le _
  have heither : d = ⟨(q / 10 ^ e).floor.toNat, e⟩ ∨ d = ⟨(q / 10 ^ e).floor.toNat + 1, e⟩ := by
    unfold neighbours at hd
    dsimp only at hd
    split at hd
    · exact .inl (List.mem_singleton.mp hd)
    · split at hd
      · exact List.mem_pair.mp hd
      · exact (List.mem_pair.mp hd).symm
  rcases heither with rfl | rfl
  · exact ⟨rfl, by rw [toRat]; linarith⟩
  · refine ⟨rfl, ?_⟩
    rw [toRat, Nat.cast_add, Nat.cast_one, add_mul, one_mul]
    linarith

theorem leadingPower_natCast {n : Nat} (hn : 0 < n) (hlt : n < 10 ^ 15) :
    0 ≤ leadingPower n ∧ leadingPower n ≤ 15 := by
  have hne : (n : Rat) ≠ 0 := by exact_mod_cast hn.ne'
  have hone : (1 : Rat) ≤ n := by exact_mod_cast hn
  have hspec := leadingExponent_spec hne
  have habs : |(n : Rat)| = n := abs_of_nonneg (by positivity)
  have hlower : 0 < Rounding.leadingExponent n + 1 := by
    rw [← zpow_lt_zpow_iff_right₀ (one_lt_two (α := Rat)), zpow_zero]
    rw [habs] at hspec
    exact lt_of_le_of_lt hone hspec.2
  have hupper : Rounding.leadingExponent n < 50 := by
    refine leadingExponent_lt hne ?_
    rw [habs]
    exact_mod_cast lt_trans hlt (by norm_num)
  unfold leadingPower
  dsimp only
  split
  · omega
  · split
    · omega
    · next h =>
      have hestimate : Rounding.leadingExponent n * 30103 / 100000 ≠ 0 := by
        intro hzero
        rw [hzero, zpow_zero] at h
        exact h hone
      omega

theorem neighbours_natCast (tie : TieRule) (n : Nat) : neighbours tie n 0 = [⟨n, 0⟩] := by
  have hfloor : (n : Rat).floor = n := by rw [← Int.cast_natCast, Rat.floor_intCast]
  unfold neighbours
  simp [hfloor]

/-- At the place of ones or further up, what rounds to a whole number is the number. -/
theorem toRat_eq_of_mem_neighbours {tie : TieRule} {n : Nat} (hlt : n < 10 ^ 15) {e : Int} (he : 0 ≤ e)
    (he' : e ≤ 15) {d : Decimal} (hd : d ∈ neighbours tie n e) (hnearest : nearest d.toRat = n) :
    d.toRat = n := by
  obtain ⟨hexponent, hle⟩ := toRat_le_of_mem_neighbours (Nat.cast_nonneg n) hd
  obtain ⟨k, rfl⟩ := Int.eq_ofNat_of_zero_le he
  have hwhole : d.toRat = ((d.significand * 10 ^ k : Nat) : Rat) := by
    rw [toRat, hexponent]
    push_cast
    rfl
  have hpow : (10 : Nat) ^ k ≤ 10 ^ 15 := Nat.pow_le_pow_right (by decide) (by omega)
  have hsmall : d.significand * 10 ^ k < 2 ^ 53 := by
    rw [hwhole] at hle
    have hle' : d.significand * 10 ^ k ≤ n + 10 ^ k := by exact_mod_cast hle
    calc d.significand * 10 ^ k ≤ n + 10 ^ k := hle'
      _ ≤ 10 ^ 15 + 10 ^ 15 := Nat.add_le_add hlt.le hpow
      _ < 2 ^ 53 := by norm_num
  have hself : nearest d.toRat = d.toRat := by
    rw [hwhole, ← Int.cast_natCast]
    refine nearest_intCast ?_
    rw [Nat.abs_cast]
    exact_mod_cast hsmall.le
  exact hself.symm.trans hnearest

/-- The shortest digits of a whole number make the number, and none of them stands behind the point. -/
theorem shortest_natCast (tie : TieRule) {n : Nat} (hn : 0 < n) (hlt : n < 10 ^ 15)
    (h : nearest n = n) : (shortest tie n).toRat = n ∧ 0 ≤ (shortest tie n).exponent := by
  obtain ⟨hlower, hupper⟩ := leadingPower_natCast hn hlt
  -- The digits are found at the place of ones if they are not found further up.
  have hones : digitsAt? tie n (leadingPower n).toNat = some ⟨n, 0⟩ := by
    have hplace : leadingPower n - ((leadingPower n).toNat : Int) = 0 := by omega
    rw [digitsAt?, hplace, neighbours_natCast, List.find?_singleton, if_pos]
    simp [toRat, h, hn.ne']
  obtain ⟨more, hmore, d, hfound, hfind⟩ :=
    exists_le_of_findSome?_range (show (leadingPower n).toNat < 17 by omega) hones
  have hmem := List.mem_of_find?_eq_some hfind
  have hd := toRat_eq_of_mem_neighbours hlt (by omega) (by omega) hmem (nearest_of_digitsAt? hfind).2
  have hexponent := (toRat_le_of_mem_neighbours (Nat.cast_nonneg n) hmem).1
  rw [shortest_eq, hfound]
  exact ⟨(toRat_trimZeros 1 d).trans hd, le_trans (by omega) (exponent_le_trimZeros 1 d)⟩

end Decimal

/-- A decimal without places behind the point has zeros behind its digits. -/
theorem NumberLayout.positional_of_whole {d : Decimal} {k : Nat} (h : d.exponent = k) :
    plain.positional d.digits d.leadingExponent = d.digits ++ List.replicate k '0' := by
  have hlength : 0 < d.digits.length := List.length_pos_of_ne_nil Nat.toDigits_ne_nil
  have hplaces : d.leadingExponent.toNat + 1 = k + d.digits.length := by
    rw [Decimal.leadingExponent, h]
    omega
  have hsign : ¬d.leadingExponent < 0 := by
    rw [Decimal.leadingExponent, h]
    omega
  rw [positional, if_neg hsign]
  dsimp only
  rw [hplaces, if_pos (Nat.le_add_left _ _), Nat.add_sub_cancel, plain, List.append_nil]

/-- A whole number below `10 ^ 15` is printed as its digits. -/
theorem NumberLayout.text_natCast {n : Nat} (hlt : n < 10 ^ 15) (h : Representable n) :
    plain.text (.finite n h) = Nat.toDigits 10 n := by
  rcases Nat.eq_zero_or_pos n with rfl | hn
  · rfl
  · have hpos : (0 : Rat) < n := by exact_mod_cast hn
    obtain ⟨hvalue, hexponent⟩ := Decimal.shortest_natCast .up hn hlt h.1
    have hne := Decimal.shortest_significand_ne_zero .up hpos
    rw [text, if_neg hpos.ne', if_neg hpos.not_gt]
    change plain.positional (Decimal.shortest .up n).digits (Decimal.shortest .up n).leadingExponent = _
    generalize Decimal.shortest .up (n : Rat) = d at hvalue hexponent hne
    obtain ⟨k, hk⟩ := Int.eq_ofNat_of_zero_le hexponent
    have hwhole : n = d.significand * 10 ^ k := by
      rw [Decimal.toRat, hk, zpow_natCast] at hvalue
      exact_mod_cast hvalue.symm
    rw [positional_of_whole hk, Decimal.digits, hwhole, toDigits_mul_pow hne]

end Handoff
