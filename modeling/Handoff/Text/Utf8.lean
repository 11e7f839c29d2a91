/-!
# Octets to text

Decoding of UTF-8 that never fails. The octets are fed one at a time to a
machine whose state is the character begun: the octets it still owes, the bounds
of the next one, and the bits so far. Where an octet cannot continue the
character, the part read is replaced by one U+FFFD and the octet begins anew.
-/

namespace Handoff.Text.Utf8

/-- The character that stands for octets that are not UTF-8. -/
def replacement : Char := Char.ofNat 0xFFFD

/-- A character of which some octets have been read. -/
structure Begun where
  /-- The octets still owed after the next one. -/
  owed : Nat
  /-- The least octet that may come next. -/
  lower : Nat
  /-- The greatest octet that may come next. -/
  upper : Nat
  /-- The bits read so far. -/
  bits : Nat
  deriving DecidableEq, Repr

/--
What an octet is at the start of a character: the text it completes, and the character it begins.
-/
def start (b : Nat) : List Char × Option Begun :=
  if b < 0x80 then ([Char.ofNat b], none)
  else if 0xC2 ≤ b ∧ b ≤ 0xDF then ([], some ⟨0, 0x80, 0xBF, b - 0xC0⟩)
  else if 0xE0 ≤ b ∧ b ≤ 0xEF then
    ([], some ⟨1, if b = 0xE0 then 0xA0 else 0x80, if b = 0xED then 0x9F else 0xBF, b - 0xE0⟩)
  else if 0xF0 ≤ b ∧ b ≤ 0xF4 then
    ([], some ⟨2, if b = 0xF0 then 0x90 else 0x80, if b = 0xF4 then 0x8F else 0xBF, b - 0xF0⟩)
  else ([replacement], none)

/-- One octet more: the text it completes, and the character then begun. -/
def step (state : Option Begun) (b : Nat) : List Char × Option Begun :=
  match state with
  | none => start b
  | some begun =>
    if begun.lower ≤ b ∧ b ≤ begun.upper then
      let bits := begun.bits * 64 + (b - 0x80)
      match begun.owed with
      | 0 => ([Char.ofNat bits], none)
      | owed + 1 => ([], some ⟨owed, 0x80, 0xBF, bits⟩)
    else
      let (text, next) := start b
      (replacement :: text, next)

/-- The text of octets that follow a character begun. -/
def decodeFrom (state : Option Begun) : List UInt8 → List Char
  | [] => if state.isSome then [replacement] else []
  | b :: rest =>
    let (text, next) := step state b.toNat
    text ++ decodeFrom next rest

/-- The text that octets encode, what is not UTF-8 replaced. -/
def decode (octets : List UInt8) : List Char := decodeFrom none octets

/-- The octets that encode a text. -/
def encode (s : List Char) : List UInt8 := s.flatMap String.utf8EncodeChar

end Handoff.Text.Utf8
