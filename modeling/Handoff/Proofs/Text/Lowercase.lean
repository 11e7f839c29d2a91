import Handoff.Proofs.Text.Ascii
import Handoff.Text.Alphanumeric
import Handoff.Text.Lowercase

/-!
# What lowercase forms are made of

The lowercase form of a character is never empty, and what has a code below that of
the small letters is in the form of nothing but itself (`eq_of_mem_lowercase`): no
letter becomes a mark in lowercase. The characters with one of the first 128 codes
that are letters or digits keep being so, and their forms are their own forms.
-/

namespace Handoff.Text

theorem lowercase_ne_nil (c : Char) : lowercase c ≠ [] := by
  unfold lowercase
  split
  · exact List.cons_ne_nil _ _
  · split
    · exact List.cons_ne_nil _ _
    · split <;> exact List.cons_ne_nil _ _

/-! ### Marks -/

/-- A number that is the code of no character stands for the first one. -/
theorem toNat_ofNat_eq_or (n : Nat) : (Char.ofNat n).toNat = n ∨ (Char.ofNat n).toNat = 0 := by
  by_cases h : n.isValidChar
  · rw [Char.ofNat, dif_pos h]
    exact .inl rfl
  · rw [Char.ofNat, dif_neg h]
    exact .inr rfl

/-- What the table gives are small letters or lies behind them. -/
theorem small_le_lowercaseRuns : ∀ run ∈ lowercaseRuns, 0x61 ≤ run.first + run.offset := by
  decide +kernel

theorem eq_of_toLower {c : Char} (hc : c.toNat < 0x80) (hsmall : c.toLower.toNat < 0x61) :
    c.toLower = c := by
  have hascii : ∀ n < 128, (Char.ofNat n).toLower.toNat < 0x61 →
      (Char.ofNat n).toLower = Char.ofNat n := by
    decide +kernel
  exact holds_of_codes (P := fun c => c.toLower.toNat < 0x61 → c.toLower = c) hascii hc hsmall

/-- A mark is in the lowercase form of no other character. -/
theorem eq_of_mem_lowercase {c d : Char} (hpos : 0 < d.toNat) (hsmall : d.toNat < 0x61)
    (h : d ∈ lowercase c) : d = c := by
  unfold lowercase at h
  split at h
  · next hascii =>
    obtain rfl := List.mem_singleton.mp h
    exact eq_of_toLower hascii hsmall
  · split at h
    · -- The form of the capital with a dot has a letter and a dot above.
      rcases List.mem_cons.mp h with rfl | h
      · exact absurd hsmall (by decide)
      · obtain rfl := List.mem_singleton.mp h
        exact absurd hsmall (by decide)
    · split at h
      · next run hrun =>
        obtain rfl := List.mem_singleton.mp h
        have hcontains : run.contains c.toNat = true :=
          List.find?_some (p := fun run : CaseRun => run.contains c.toNat) hrun
        have hfirst : run.first ≤ c.toNat := by
          simp only [CaseRun.contains, Bool.and_eq_true, decide_eq_true_eq] at hcontains
          exact hcontains.1.1
        have hrange := small_le_lowercaseRuns run (List.mem_of_find?_eq_some hrun)
        rcases toNat_ofNat_eq_or (c.toNat + run.offset).toNat with hcode | hcode <;> omega
      · exact List.mem_singleton.mp h

/-! ### ASCII -/

theorem isAlphanum_of_isAlphanumeric {c : Char} (hc : c.toNat < 0x80)
    (h : isAlphanumeric c = true) : c.isAlphanum = true := by
  rwa [isAlphanumeric, if_pos hc] at h

/-- Letters and digits are letters or numbers in the sense of Unicode. -/
theorem isAlphanumeric_of_isAlphanum {c : Char} (h : c.isAlphanum = true) :
    isAlphanumeric c = true := by
  rw [isAlphanumeric, if_pos (toNat_lt_of_isAlphanum h), h]

theorem lowercase_of_lt {c : Char} (hc : c.toNat < 0x80) : lowercase c = [c.toLower] := if_pos hc

theorem toLower_toLower {c : Char} (h : c.isAlphanum = true) : c.toLower.toLower = c.toLower := by
  have hascii : ∀ n < 128, (Char.ofNat n).toLower.toLower = (Char.ofNat n).toLower := by
    decide +kernel
  exact holds_of_codes (P := fun c => c.toLower.toLower = c.toLower) hascii
    (toNat_lt_of_isAlphanum h)

end Handoff.Text
