import Handoff.Text.Utf8

/-!
# Text that is encoded is decoded

The octets of a character bring the machine from between characters to between
characters again, and the character is what it gives. There is one lemma for each
length of a character: its octets lie between the bounds that the octet before
them sets, because a character is neither a surrogate nor beyond the last code
point. So every text is what its octets are decoded to (`decode_encode`).
-/

namespace Handoff.Text.Utf8

/-! ### Single octets -/

theorem toNat_ofNat_octet {n : Nat} (h : n < 256) : (UInt8.ofNat n).toNat = n := by
  rw [UInt8.toNat_ofNat']
  omega

/-- An octet that begins a character of two leaves its own bits. -/
theorem step_lead_two {b : Nat} (h : 0xC2 ≤ b) (h' : b ≤ 0xDF) :
    step none b = ([], some ⟨0, 0x80, 0xBF, b - 0xC0⟩) := by
  rw [step, start, if_neg (by omega), if_pos ⟨h, h'⟩]

/-- The second octet of a character of three, which has bounds of its own after two first octets. -/
theorem exists_step_lead_three (b next : Nat) (h : 0xE0 ≤ b) (h' : b ≤ 0xEF)
    (htail : 0x80 ≤ next ∧ next ≤ 0xBF) (hlower : b = 0xE0 → 0xA0 ≤ next)
    (hupper : b = 0xED → next ≤ 0x9F) :
    ∃ lower upper, step none b = ([], some ⟨1, lower, upper, b - 0xE0⟩)
      ∧ lower ≤ next ∧ next ≤ upper := by
  refine ⟨if b = 0xE0 then 0xA0 else 0x80, if b = 0xED then 0x9F else 0xBF, ?_, ?_, ?_⟩
  · rw [step, start, if_neg (by omega), if_neg (by omega), if_pos ⟨h, h'⟩]
  · split <;> omega
  · split <;> omega

/-- The second octet of a character of four, which has bounds of its own after two first octets. -/
theorem exists_step_lead_four (b next : Nat) (h : 0xF0 ≤ b) (h' : b ≤ 0xF4)
    (htail : 0x80 ≤ next ∧ next ≤ 0xBF) (hlower : b = 0xF0 → 0x90 ≤ next)
    (hupper : b = 0xF4 → next ≤ 0x8F) :
    ∃ lower upper, step none b = ([], some ⟨2, lower, upper, b - 0xF0⟩)
      ∧ lower ≤ next ∧ next ≤ upper := by
  refine ⟨if b = 0xF0 then 0x90 else 0x80, if b = 0xF4 then 0x8F else 0xBF, ?_, ?_, ?_⟩
  · rw [step, start, if_neg (by omega), if_neg (by omega), if_neg (by omega), if_pos ⟨h, h'⟩]
  · split <;> omega
  · split <;> omega

/-- An octet between the bounds goes on with the character begun. -/
theorem step_further {owed lower upper bits b : Nat} (h : lower ≤ b) (h' : b ≤ upper) :
    step (some ⟨owed + 1, lower, upper, bits⟩) b
      = ([], some ⟨owed, 0x80, 0xBF, bits * 64 + (b - 0x80)⟩) := if_pos ⟨h, h'⟩

/-- The last octet completes the character begun. -/
theorem step_last {lower upper bits b v : Nat} (h : lower ≤ b) (h' : b ≤ upper)
    (hv : bits * 64 + (b - 0x80) = v) :
    step (some ⟨0, lower, upper, bits⟩) b = ([Char.ofNat v], none) := by
  rw [← hv]
  exact if_pos ⟨h, h'⟩

theorem decodeFrom_cons {state next : Option Begun} {text : List Char} {n : Nat} (hn : n < 256)
    (h : step state n = (text, next)) (rest : List UInt8) :
    decodeFrom state (UInt8.ofNat n :: rest) = text ++ decodeFrom next rest := by
  rw [decodeFrom, toNat_ofNat_octet hn, h]

/-! ### Characters -/

variable {v : Nat} (rest : List UInt8)

theorem decodeFrom_one (h : v ≤ 0x7F) :
    decodeFrom none (UInt8.ofNat v :: rest) = Char.ofNat v :: decodeFrom none rest := by
  have hstep : step none v = ([Char.ofNat v], none) := if_pos (by omega)
  exact decodeFrom_cons (by omega) hstep rest

/-- The octets after the first leave the bits of the character down to theirs. -/
theorem decodeFrom_two (h : 0x7F < v) (h' : v ≤ 0x7FF) :
    decodeFrom none (UInt8.ofNat (v / 64 % 32 + 192) :: UInt8.ofNat (v % 64 + 128) :: rest)
      = Char.ofNat v :: decodeFrom none rest := by
  have h₁ : step none (v / 64 % 32 + 192) = ([], some ⟨0, 0x80, 0xBF, v / 64⟩) := by
    rw [step_lead_two (by omega) (by omega), show v / 64 % 32 + 192 - 0xC0 = v / 64 by omega]
  have h₂ : step (some ⟨0, 0x80, 0xBF, v / 64⟩) (v % 64 + 128) = ([Char.ofNat v], none) :=
    step_last (by omega) (by omega) (by omega)
  rw [decodeFrom_cons (by omega) h₁, decodeFrom_cons (by omega) h₂]
  rfl

/-- A character of three octets is no surrogate, so that the second is between its bounds. -/
theorem decodeFrom_three (h : 0x7FF < v) (h' : v ≤ 0xFFFF) (hsurrogate : v < 0xD800 ∨ 0xDFFF < v) :
    decodeFrom none (UInt8.ofNat (v / 4096 % 16 + 224) :: UInt8.ofNat (v / 64 % 64 + 128)
        :: UInt8.ofNat (v % 64 + 128) :: rest)
      = Char.ofNat v :: decodeFrom none rest := by
  obtain ⟨lower, upper, h₁, hlower, hupper⟩ :=
    exists_step_lead_three (v / 4096 % 16 + 224) (v / 64 % 64 + 128)
      (by omega) (by omega) (by omega) (by omega) (by omega)
  rw [show v / 4096 % 16 + 224 - 0xE0 = v / 4096 by omega] at h₁
  have h₂ : step (some ⟨1, lower, upper, v / 4096⟩) (v / 64 % 64 + 128)
      = ([], some ⟨0, 0x80, 0xBF, v / 64⟩) := by
    rw [step_further hlower hupper, show v / 4096 * 64 + (v / 64 % 64 + 128 - 0x80) = v / 64 by omega]
  have h₃ : step (some ⟨0, 0x80, 0xBF, v / 64⟩) (v % 64 + 128) = ([Char.ofNat v], none) :=
    step_last (by omega) (by omega) (by omega)
  rw [decodeFrom_cons (by omega) h₁, decodeFrom_cons (by omega) h₂, decodeFrom_cons (by omega) h₃]
  rfl

/-- A character of four octets is a code point, so that the second is between its bounds. -/
theorem decodeFrom_four (h : 0xFFFF < v) (h' : v < 0x110000) :
    decodeFrom none (UInt8.ofNat (v / 262144 % 8 + 240) :: UInt8.ofNat (v / 4096 % 64 + 128)
        :: UInt8.ofNat (v / 64 % 64 + 128) :: UInt8.ofNat (v % 64 + 128) :: rest)
      = Char.ofNat v :: decodeFrom none rest := by
  obtain ⟨lower, upper, h₁, hlower, hupper⟩ :=
    exists_step_lead_four (v / 262144 % 8 + 240) (v / 4096 % 64 + 128)
      (by omega) (by omega) (by omega) (by omega) (by omega)
  rw [show v / 262144 % 8 + 240 - 0xF0 = v / 262144 by omega] at h₁
  have h₂ : step (some ⟨2, lower, upper, v / 262144⟩) (v / 4096 % 64 + 128)
      = ([], some ⟨1, 0x80, 0xBF, v / 4096⟩) := by
    rw [step_further hlower hupper,
      show v / 262144 * 64 + (v / 4096 % 64 + 128 - 0x80) = v / 4096 by omega]
  have h₃ : step (some ⟨1, 0x80, 0xBF, v / 4096⟩) (v / 64 % 64 + 128)
      = ([], some ⟨0, 0x80, 0xBF, v / 64⟩) := by
    rw [step_further (by omega) (by omega),
      show v / 4096 * 64 + (v / 64 % 64 + 128 - 0x80) = v / 64 by omega]
  have h₄ : step (some ⟨0, 0x80, 0xBF, v / 64⟩) (v % 64 + 128) = ([Char.ofNat v], none) :=
    step_last (by omega) (by omega) (by omega)
  rw [decodeFrom_cons (by omega) h₁, decodeFrom_cons (by omega) h₂, decodeFrom_cons (by omega) h₃,
    decodeFrom_cons (by omega) h₄]
  rfl

/-- The octets of a character are decoded to it. -/
theorem decodeFrom_utf8EncodeChar (c : Char) :
    decodeFrom none (String.utf8EncodeChar c ++ rest) = c :: decodeFrom none rest := by
  have hvalid : c.val.toNat < 0xD800 ∨ 0xDFFF < c.val.toNat ∧ c.val.toNat < 0x110000 := c.valid
  have hchar : Char.ofNat c.val.toNat = c := Char.ofNat_toNat c
  unfold String.utf8EncodeChar
  simp only
  split
  · next h => exact (decodeFrom_one rest h).trans (by rw [hchar])
  split
  · next h h' => exact (decodeFrom_two rest (by omega) h').trans (by rw [hchar])
  split
  · next h h' => exact (decodeFrom_three rest (by omega) h' (by omega)).trans (by rw [hchar])
  · next h => exact (decodeFrom_four rest (by omega) (by omega)).trans (by rw [hchar])

/-- **Text that is encoded is decoded.** -/
theorem decode_encode (s : List Char) : decode (encode s) = s := by
  induction s with
  | nil => rfl
  | cons c s ih =>
    rw [decode, encode, List.flatMap_cons, decodeFrom_utf8EncodeChar]
    exact congrArg (c :: ·) ih

end Handoff.Text.Utf8
