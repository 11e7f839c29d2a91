import Handoff.Proofs.Script.Literal

/-!
# Literals on one line

A literal has no break of a line, whatever the value is (`isLine_literal`): the
breaks in its strings and keys are escaped, and its numbers are numerals. So lines
that are put together from words and literals can be told apart by the breaks
between them (`splitOn_intercalate`).
-/

namespace Handoff.Script

open Handoff.Json

/-- The text has no break of a line. -/
def IsLine (s : String) : Prop := '\n' ∉ s.toList ∧ '\r' ∉ s.toList

instance (s : String) : Decidable (IsLine s) := inferInstanceAs (Decidable (_ ∧ _))

@[simp] theorem isLine_append {s t : String} : IsLine (s ++ t) ↔ IsLine s ∧ IsLine t := by
  simp only [IsLine, String.toList_append, List.mem_append, not_or]
  exact and_and_and_comm

/-! ### Taking lines apart -/

/-- The breaks between lines are the only ones in their text. -/
theorem splitOn_intercalate {lines : List String} (hne : lines ≠ [])
    (h : ∀ l ∈ lines, '\n' ∉ l.toList) :
    ("\n".intercalate lines).toList.splitOn '\n' = lines.map String.toList := by
  have htext : ("\n".intercalate lines).toList = ['\n'].intercalate (lines.map String.toList) :=
    String.toList_intercalate
  rw [htext, List.splitOn_intercalate '\n' (List.forall_mem_map.mpr h)
    (mt List.map_eq_nil_iff.mp hne)]

/-! ### Strings and keys -/

/-- A string in quotes has no break, whatever characters it has. -/
theorem isLine_quote (s : String) : IsLine (quote s) := by
  have hescape : ∀ c, '\n' ∉ escape c ∧ '\r' ∉ escape c := by
    intro c
    unfold escape
    split_ifs with h₁ h₂ h₃ h₄ h₅
    · decide
    · decide
    · decide
    · decide
    · decide
    · rw [List.mem_singleton, List.mem_singleton]
      exact ⟨Ne.symm h₃, Ne.symm h₄⟩
  have hchars : ∀ b, (∀ c, b ∉ escape c) → b ≠ '\'' → b ∉ (quote s).toList := by
    intro b hb hquote
    simp only [quote, String.toList_ofList, List.cons_append, List.mem_cons, List.mem_append,
      List.mem_flatMap, List.not_mem_nil, or_false, not_or, not_exists, not_and]
    exact ⟨hquote, fun c _ => hb c, hquote⟩
  exact ⟨hchars _ (fun c => (hescape c).1) (by decide), hchars _ (fun c => (hescape c).2) (by decide)⟩

/-- A text of characters that are no breaks has no break. -/
theorem isLine_of_forall {p : Char → Bool} {s : String} (hp : p '\n' = false ∧ p '\r' = false)
    (h : ∀ c ∈ s.toList, p c = true) : IsLine s :=
  ⟨fun hmem => Bool.false_ne_true (hp.1.symm.trans (h _ hmem)),
    fun hmem => Bool.false_ne_true (hp.2.symm.trans (h _ hmem))⟩

theorem continuesIdentifier_of_starts {c : Char} (h : startsIdentifier c = true) :
    continuesIdentifier c = true := by
  simp only [startsIdentifier, continuesIdentifier, Char.isAlphanum, Bool.or_eq_true] at h ⊢
  exact h.imp_left (Or.imp_left Or.inl)

theorem isLine_of_isIdentifier {s : String} (h : isIdentifier s = true) : IsLine s := by
  refine isLine_of_forall (p := continuesIdentifier) (by decide) ?_
  unfold isIdentifier at h
  split at h
  · next hnil => simp [hnil]
  · next c rest hcons =>
    obtain ⟨hc, hrest⟩ := Bool.and_eq_true_iff.mp h
    rw [hcons]
    exact List.forall_mem_cons.mpr ⟨continuesIdentifier_of_starts hc, List.all_eq_true.mp hrest⟩

theorem isLine_key (s : String) : IsLine (key s) := by
  unfold key
  split
  · next h => exact isLine_of_isIdentifier h
  · exact isLine_quote s

/-! ### Literals -/

theorem isLine_of_isNumeral {s : String} (h : IsNumeral s.toList) : IsLine s :=
  isLine_of_forall (by decide) h.forall_isNumeralChar

theorem isLine_floatText (x : Binary64) : IsLine (floatText x) := by
  unfold floatText
  split
  · next hx =>
    refine isLine_of_isNumeral ?_
    rw [String.toList_ofList]
    exact isNumeral_text hx
  · decide

theorem isLine_intercalate {separator : String} (hseparator : IsLine separator) {parts : List String}
    (h : ∀ s ∈ parts, IsLine s) : IsLine (separator.intercalate parts) := by
  induction parts with
  | nil => simp [IsLine]
  | cons s parts ih =>
    obtain ⟨hs, hparts⟩ := List.forall_mem_cons.mp h
    by_cases hnil : parts = []
    · rwa [hnil, String.intercalate_singleton]
    · rw [String.intercalate_cons_of_ne_nil hnil, isLine_append, isLine_append]
      exact ⟨⟨hs, hseparator⟩, ih hparts⟩

/-- A literal has no break, whatever the value is. -/
theorem isLine_literal (v : Json) : IsLine (literal v) := by
  induction v using parts_induction with
  | null => decide
  | bool b => cases b <;> decide
  | integer n => exact isLine_of_isNumeral (isNumeral_repr n)
  | float x => exact isLine_floatText x
  | string s => exact isLine_quote s
  | array items ih =>
    rw [literal, literals_eq_map, isLine_append, isLine_append]
    exact ⟨⟨by decide, isLine_intercalate (by decide) (List.forall_mem_map.mpr ih)⟩, by decide⟩
  | object fields ih =>
    cases fields with
    | nil => decide
    | cons field more =>
      have hentries : ∀ s ∈ entries (field :: more), IsLine s := by
        rw [entries_eq_map, List.forall_mem_map]
        intro f hf
        simp only [isLine_append]
        exact ⟨⟨isLine_key f.1, by decide⟩, ih f hf⟩
      rw [literal, isLine_append, isLine_append]
      exact ⟨⟨by decide, isLine_intercalate (by decide) hentries⟩, by decide⟩

end Handoff.Script
