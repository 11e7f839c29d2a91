import Handoff.Text.Basic

/-!
# ASCII letters and digits

A property of characters with the first 128 codes is decided code by code
(`holds_of_codes`). Letters and digits are among these, and they stay letters and
digits when their case is changed. A hexadecimal digit in either case has the value
that it was written for.
-/

namespace Handoff.Text

/-- What holds of the first 128 codes holds of every character with one of these. -/
theorem holds_of_codes {P : Char → Prop} (h : ∀ n < 128, P (Char.ofNat n)) {c : Char}
    (hc : c.toNat < 128) : P c := by
  have hcode := h c.toNat hc
  rwa [Char.ofNat_toNat] at hcode

theorem toNat_lt_of_isAlphanum {c : Char} (h : c.isAlphanum = true) : c.toNat < 128 := by
  have hcode : c.val.toNat ≤ 122 := by
    rcases Bool.or_eq_true_iff.mp h with halpha | hdigit
    · rcases Bool.or_eq_true_iff.mp halpha with hupper | hlower
      · have hle : c.val.toNat ≤ 90 := (of_decide_eq_true hupper).2
        omega
      · exact of_decide_eq_true (Bool.and_eq_true_iff.mp hlower).2
    · have hle : c.val.toNat ≤ 57 := of_decide_eq_true (Bool.and_eq_true_iff.mp hdigit).2
      omega
  exact Nat.lt_of_le_of_lt hcode (by decide)

theorem isAlphanum_toUpper {c : Char} (h : c.isAlphanum = true) : c.toUpper.isAlphanum = true := by
  have hascii : ∀ n < 128, (Char.ofNat n).isAlphanum = true →
      (Char.ofNat n).toUpper.isAlphanum = true := by
    decide +kernel
  exact holds_of_codes (P := fun c => c.isAlphanum = true → c.toUpper.isAlphanum = true) hascii
    (toNat_lt_of_isAlphanum h) h

theorem isAlphanum_toLower {c : Char} (h : c.isAlphanum = true) : c.toLower.isAlphanum = true := by
  have hascii : ∀ n < 128, (Char.ofNat n).isAlphanum = true →
      (Char.ofNat n).toLower.isAlphanum = true := by
    decide +kernel
  exact holds_of_codes (P := fun c => c.isAlphanum = true → c.toLower.isAlphanum = true) hascii
    (toNat_lt_of_isAlphanum h) h

/-- A letter in uppercase is a capital, and a digit stays a digit. -/
theorem isUpper_or_isDigit_toUpper {c : Char} (h : c.isAlphanum = true) :
    c.toUpper.isUpper = true ∨ c.toUpper.isDigit = true := by
  have hascii : ∀ n < 128, (Char.ofNat n).isAlphanum = true →
      (Char.ofNat n).toUpper.isUpper = true ∨ (Char.ofNat n).toUpper.isDigit = true := by
    decide +kernel
  exact holds_of_codes (P := fun c => c.isAlphanum = true →
    c.toUpper.isUpper = true ∨ c.toUpper.isDigit = true) hascii (toNat_lt_of_isAlphanum h) h

/-- A letter in lowercase is a small one, and a digit stays a digit. -/
theorem isLower_or_isDigit_toLower {c : Char} (h : c.isAlphanum = true) :
    c.toLower.isLower = true ∨ c.toLower.isDigit = true := by
  have hascii : ∀ n < 128, (Char.ofNat n).isAlphanum = true →
      (Char.ofNat n).toLower.isLower = true ∨ (Char.ofNat n).toLower.isDigit = true := by
    decide +kernel
  exact holds_of_codes (P := fun c => c.isAlphanum = true →
    c.toLower.isLower = true ∨ c.toLower.isDigit = true) hascii (toNat_lt_of_isAlphanum h) h

/-- Letters and digits are none of the characters that divide a path. -/
theorem ne_of_isAlphanum {c d : Char} (h : c.isAlphanum = true) (hd : d.isAlphanum = false) : c ≠ d := by
  rintro rfl
  exact Bool.false_ne_true (hd.symm.trans h)

/-! ### Hexadecimal digits -/

theorem hexDigit?_lowerHexDigit : ∀ n < 16, hexDigit? (lowerHexDigit n) = some n := by decide

theorem hexDigit?_upperHexDigit : ∀ n < 16, hexDigit? (upperHexDigit n) = some n := by decide

end Handoff.Text
