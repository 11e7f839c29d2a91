import Handoff.Proofs.Binary64.Equality
import Handoff.Proofs.Binary64.Reading
import Handoff.Proofs.Json.Numeral

/-!
# Numbers are read back

A number with the parts of a numeral is read as what the parts stand for
(`number_run`): an integer where there is neither point nor exponent, and else the
number nearest to the decimal. Integers of 64 bits are read back from their digits
(`number_repr`). A finite number is printed with digits to which it is the nearest,
and never without a point or an exponent, so it is read back as well
(`number_text`).
-/

namespace Handoff.Json

open Handoff.Parser

/-! ### The parts of a number -/

/-- What a number with these parts is read as. -/
def Parts.value (negative : Bool) (p : Parts) : Json :=
  if p.isInteger then ofInteger negative (ofDigits p.whole)
  else .float (.ofDecimal negative p.decimal)

theorem exponent_run (power : Option Int) {rest : List Char} (hrest : Stops continuesToken rest) :
    option exponent (exponentText power ++ rest) = some (power, rest) := by
  cases power with
  | none =>
    refine option_none ?_
    change exponent rest = none
    rw [exponent, bind_apply, powerLetter_stops hrest]
    rfl
  | some e =>
    have hvalue : (if some (powerSign e) = some '-' then -(e.natAbs : Int) else e.natAbs) = e := by
      rcases lt_or_ge e 0 with hneg | hpos
      · rw [powerSign, if_pos hneg, if_pos rfl]
        omega
      · rw [powerSign, if_neg hpos.not_gt, if_neg (by decide)]
        omega
    refine option_some ?_
    rw [exponentText_append, exponent, bind_run rfl, bind_run (powerSign_run e _),
      bind_run (powerDigits_run e hrest), ofDigits_toDigits, hvalue]
    rfl

/-- **A number is read as what its parts stand for**, unless that is out of the range. -/
theorem number_run (negative : Bool) (p : Parts) {rest : List Char}
    (hrest : Stops continuesToken rest) (hfinite : ∀ x, p.value negative = .float x →
      x.isFinite = true) :
    number (signText negative ++ (p.text ++ rest)) = some (p.value negative, rest) := by
  have hsign : (if negative then some () else none).isSome = negative := by cases negative <;> rfl
  rw [number, bind_run (sign_run negative p rest)]
  dsimp only
  rw [bind_run (whole_run p hrest), bind_run (fraction_run p hrest),
    bind_run (exponent_run p.exponent hrest), hsign]
  generalize hvalue : (if p.fraction.isNone && p.exponent.isNone then _ else _ : Json) = v
  have hparts : p.value negative = v := hvalue
  rw [hparts] at hfinite ⊢
  cases v with
  | float x => exact congrFun (if_pos (hfinite x rfl)) rest
  | _ => rfl

/-! ### Integers -/

theorem value_ofNat (negative : Bool) (n : Nat) :
    (Parts.ofNat n).value negative = ofInteger negative n :=
  congrArg (ofInteger negative) (ofDigits_toDigits n)

/-- Integers of 64 bits are read back. -/
theorem number_repr {n : Int} (hmin : -0x8000000000000000 ≤ n) (hmax : n < 0x10000000000000000)
    {rest : List Char} (hrest : Stops continuesToken rest) :
    number (n.repr.toList ++ rest) = some (.integer n, rest) := by
  have hvalue : (Parts.ofNat n.natAbs).value (decide (n < 0)) = .integer n := by
    rw [value_ofNat, ofInteger]
    rcases lt_or_ge n 0 with hneg | hpos
    · rw [decide_eq_true hneg, if_pos rfl, if_neg (by omega), if_pos (by omega)]
      congr 1
      omega
    · rw [decide_eq_false hpos.not_gt, if_neg Bool.false_ne_true, if_pos (by omega)]
      congr 1
      omega
  rw [toList_repr, List.append_assoc, number_run _ _ hrest (by simp [hvalue]), hvalue]

/-! ### Other numbers -/

theorem value_of_text_finite {q : Rat} (h : Representable q) (hq : q ≠ 0) {p : Parts}
    (hinteger : p.isInteger = false)
    (hvalue : p.decimal.toRat = (Decimal.shortest numberLayout.tie |q|).toRat) :
    p.value (decide (q < 0)) = .float (.finite q h) := by
  have hround : Rounding.nearest |q| = |q| := by rw [← Rounding.abs_nearest, h.1]
  rw [Parts.value, if_neg (by simp [hinteger]), Binary64.ofDecimal_eq_finite h hq]
  rw [hvalue, Decimal.nearest_toRat_shortest _ (abs_pos.mpr hq) hround]

theorem value_zero (negative : Bool) :
    Parts.zero.value negative = .float (if negative then .negativeZero else 0) := rfl

/-- **Finite numbers are read back**, with the sign of a zero. -/
theorem number_text {x : Binary64} (hx : x.isFinite = true) {rest : List Char}
    (hrest : Stops continuesToken rest) :
    number (numberLayout.text x ++ rest) = some (.float x, rest) := by
  have hparts : ∃ (negative : Bool) (p : Parts), numberLayout.text x = signText negative ++ p.text
      ∧ p.value negative = .float x := by
    cases x with
    | finite q h =>
      by_cases hq : q = 0
      · subst hq
        obtain ⟨_, hzero⟩ := Binary64.zero_eq
        exact ⟨false, .zero, rfl, (value_zero false).trans (congrArg Json.float hzero)⟩
      · obtain ⟨p, hinteger, hvalue, htext⟩ := exists_parts_finite h hq
        exact ⟨_, p, htext, value_of_text_finite h hq hinteger hvalue⟩
    | negativeZero => exact ⟨true, .zero, rfl, value_zero true⟩
    | infinite _ => simp [Binary64.isFinite, Binary64.toRat?] at hx
    | nan => simp [Binary64.isFinite, Binary64.toRat?] at hx
  obtain ⟨negative, p, htext, hvalue⟩ := hparts
  have hfinite : ∀ y, p.value negative = .float y → y.isFinite = true := by
    rw [hvalue]
    rintro _ ⟨⟩
    exact hx
  rw [htext, List.append_assoc, number_run negative p hrest hfinite, hvalue]

end Handoff.Json
