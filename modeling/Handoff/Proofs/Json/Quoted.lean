import Handoff.Json.Printer
import Handoff.Proofs.Parser
import Handoff.Proofs.Text.Ascii
import Mathlib.Tactic.SplitIfs

/-!
# Strings in JSON

A string written in double quotes is read back, whatever characters it has.
-/

namespace Handoff

open Handoff.Parser

namespace Json

theorem escape_ne_nil (c : Char) : escape c ≠ [] := by
  unfold escape
  split_ifs <;> simp

/-- A control character is read back from its code. -/
theorem stringChar_code {c : Char} (hc : c < ' ') (rest : List Char) :
    stringChar ('\\' :: 'u' :: '0' :: '0' :: Text.lowerHexDigit (c.toNat / 16)
      :: Text.lowerHexDigit (c.toNat % 16) :: rest) = some (c, rest) := by
  have hlt : c.toNat < 32 := hc
  have h₀ : Text.hexDigit? '0' = some 0 := rfl
  have h₁ := Text.hexDigit?_lowerHexDigit (c.toNat / 16) (by omega)
  have h₂ := Text.hexDigit?_lowerHexDigit (c.toNat % 16) (by omega)
  have hcode : codeUnit ('0' :: '0' :: Text.lowerHexDigit (c.toNat / 16)
      :: Text.lowerHexDigit (c.toNat % 16) :: rest) = some (c.toNat, rest) := by
    simp only [codeUnit, bind_apply, take, Option.map_some, Option.bind_some, Text.hexNumber?,
      List.foldlM_cons, List.foldlM_nil, h₀, h₁, h₂, lift]
    simp
    omega
  simp only [stringChar, escaped, bind_apply, satisfy_cons, if_true, Option.bind_some, hcode]
  rw [if_neg (by omega), if_neg (by omega)]
  simp [Char.ofNat_toNat]

/-- One character of a string is read back from what it is written as. -/
theorem stringChar_escape (c : Char) (rest : List Char) :
    stringChar (escape c ++ rest) = some (c, rest) := by
  unfold escape
  split_ifs with h₁ h₂ h₃ h₄ h₅ h₆ h₇ h₈
  · subst h₁; rfl
  · subst h₂; rfl
  · subst h₃; rfl
  · subst h₄; rfl
  · subst h₅; rfl
  · subst h₆; rfl
  · subst h₇; rfl
  · exact stringChar_code h₈ rest
  · have : stringChar (c :: rest) = if c < ' ' then none else some (c, rest) := by
      rw [stringChar.eq_def]
      split <;> simp_all
    simp [this, h₈]

/-- **Quoted strings are read back.** -/
theorem stringLiteral_quote (s : String) (rest : List Char) :
    stringLiteral ((quote s).toList ++ rest) = some (s, rest) := by
  have hmany := many_flatMap escape id s.toList (fun c _ => escape_ne_nil c)
    (fun c _ => stringChar_escape c) (show stringChar ('"' :: rest) = none from rfl)
  simp [stringLiteral, quote, hmany]

end Json

end Handoff
