import Handoff.Link
import Handoff.Proofs.Text.Ascii
import Handoff.Proofs.Text.Utf8
import Mathlib.Data.List.Forall2

/-!
# Text with escapes is decoded

In a text with escapes each character stands for itself, or all of its octets are
escaped with digits in either case; a blank may be a plus sign. Whatever is chosen for
each character (`Encodes`), the octets are those of the text (`octets_flatten`), so
that decoding gives it back (`decode_of_encodes`).
-/

namespace Handoff.Percent

open Text

/-! ### Ways to write a text -/

/-- A hexadecimal digit for a number below sixteen, in either case. -/
def IsDigitOf (n : Nat) (c : Char) : Prop := c = upperHexDigit n ∨ c = lowerHexDigit n

instance (n : Nat) (c : Char) : Decidable (IsDigitOf n c) := inferInstanceAs (Decidable (_ ∨ _))

/-- Octets with an escape for each of them. -/
inductive Escaped : List UInt8 → List Char → Prop where
  /-- Without octets there are no escapes. -/
  | nil : Escaped [] []
  /-- A percent sign and two digits stand for an octet. -/
  | cons {b : UInt8} {bs : List UInt8} {high low : Char} {cs : List Char}
      (hhigh : IsDigitOf (b.toNat / 16) high) (hlow : IsDigitOf (b.toNat % 16) low)
      (h : Escaped bs cs) : Escaped (b :: bs) ('%' :: high :: low :: cs)

/-- What a character may be written as. -/
inductive WrittenAs : Char → List Char → Prop where
  /-- A character stands for itself, unless it is one of those with another meaning. -/
  | plain {c : Char} (hpercent : c ≠ '%') (hplus : c ≠ '+') : WrittenAs c [c]
  /-- A plus sign stands for a blank. -/
  | plus : WrittenAs ' ' ['+']
  /-- All octets of a character are escaped. -/
  | escaped {c : Char} {cs : List Char} (h : Escaped (String.utf8EncodeChar c) cs) : WrittenAs c cs

/-- The text `s` is written as `raw`, each character in one of the ways that it may be. -/
def Encodes (s raw : List Char) : Prop :=
  ∃ forms, List.Forall₂ WrittenAs s forms ∧ raw = forms.flatten

theorem exists_escaped (bs : List UInt8) : ∃ cs, Escaped bs cs := by
  induction bs with
  | nil => exact ⟨[], .nil⟩
  | cons b bs ih =>
    obtain ⟨cs, hcs⟩ := ih
    exact ⟨_, .cons (.inl rfl) (.inl rfl) hcs⟩

/-- Any text can be written. -/
theorem exists_encodes (s : List Char) : ∃ raw, Encodes s raw := by
  induction s with
  | nil => exact ⟨_, [], .nil, rfl⟩
  | cons c s ih =>
    obtain ⟨cs, hcs⟩ := exists_escaped (String.utf8EncodeChar c)
    obtain ⟨-, forms, hforms, -⟩ := ih
    exact ⟨_, cs :: forms, .cons (.escaped hcs) hforms, rfl⟩

/-- A text without the characters that have another meaning may be written as it is. -/
theorem encodes_self {s : List Char} (hpercent : '%' ∉ s) (hplus : '+' ∉ s) : Encodes s s := by
  refine ⟨s.map fun c => [c], ?_, ?_⟩
  · rw [List.forall₂_map_right_iff, List.forall₂_same]
    intro c hc
    exact .plain (fun h => hpercent (h ▸ hc)) (fun h => hplus (h ▸ hc))
  · rw [← List.flatMap_def, List.flatMap_singleton']

/-! ### Octets -/

theorem hexDigit?_of_isDigitOf {n : Nat} {c : Char} (hn : n < 16) (h : IsDigitOf n c) :
    hexDigit? c = some n := by
  rcases h with rfl | rfl
  · exact hexDigit?_upperHexDigit n hn
  · exact hexDigit?_lowerHexDigit n hn

theorem octets_escaped {bs : List UInt8} {cs : List Char} (h : Escaped bs cs) (rest : List Char) :
    octets (cs ++ rest) = bs ++ octets rest := by
  induction h with
  | nil => rfl
  | @cons b bs high low cs hhigh hlow _ ih =>
    have hlt : b.toNat < 256 := b.toNat_lt
    have hhigh := hexDigit?_of_isDigitOf (by omega) hhigh
    have hlow := hexDigit?_of_isDigitOf (by omega) hlow
    have hoctet : UInt8.ofNat (16 * (b.toNat / 16) + b.toNat % 16) = b := by
      rw [Nat.div_add_mod, UInt8.ofNat_toNat]
    simp only [List.cons_append, octets, hhigh, hlow, hoctet, ih]

/-- Whatever a character is written as, its octets come first. -/
theorem octets_writtenAs {c : Char} {form : List Char} (h : WrittenAs c form) (rest : List Char) :
    octets (form ++ rest) = String.utf8EncodeChar c ++ octets rest := by
  cases h with
  | plain hpercent hplus =>
    rw [List.singleton_append, octets, if_neg hplus]
    exact fun _ _ _ heq => absurd heq hpercent
  | plus => rfl
  | escaped h => exact octets_escaped h rest

theorem octets_flatten {s : List Char} {forms : List (List Char)}
    (h : List.Forall₂ WrittenAs s forms) : octets forms.flatten = Utf8.encode s := by
  induction h with
  | nil => rfl
  | cons hform _ ih =>
    rw [List.flatten_cons, octets_writtenAs hform, ih, Utf8.encode, Utf8.encode, List.flatMap_cons]

/-- **A text that is written with escapes is decoded.** -/
theorem decode_of_encodes {s raw : List Char} (h : Encodes s raw) : decode raw = s := by
  obtain ⟨forms, hforms, rfl⟩ := h
  rw [decode, octets_flatten hforms, Utf8.decode_encode]

theorem decode_eq_self {s : List Char} (hpercent : '%' ∉ s) (hplus : '+' ∉ s) : decode s = s :=
  decode_of_encodes (encodes_self hpercent hplus)

end Handoff.Percent
