import Handoff.Proofs.Script.Lines

/-!
# Strings stay inside their quotes

The text of a string in a script ends at the first quote that is not escaped. Whatever
characters a string has, this is the last character of its literal, and no line ends before
it (`isEnclosed_escaped`), so that nothing of the string is read as script. It is escaped
exactly behind a backslash that is not escaped itself, and the induction on the characters
of the string carries that none is escaped where the next one begins.

Together with `expression_literal` this says what literals stand for (`literal_reads_back`).
-/

namespace Handoff.Script

open Handoff.Parser

/-! ### Escaped characters -/

/-- Whether the character behind a text is escaped, where the text itself begins escaped or not. -/
def escapesFrom (escaped : Bool) (before : List Char) : Bool :=
  before.foldl (fun escaped c => !escaped && c = '\\') escaped

/-- Whether the character behind a text is escaped: the text ends in a backslash that is not. -/
def escapesNext (before : List Char) : Bool := escapesFrom false before

/-- A text in quotes cannot end before its closing quote, nor go on behind it. -/
structure IsEnclosed (body : List Char) : Prop where
  /-- Every quote is escaped. -/
  quotes : ∀ before after, body = before ++ '\'' :: after → escapesNext before = true
  /-- The closing quote is not. -/
  closing : escapesNext body = false
  /-- No line feed. -/
  feed : '\n' ∉ body
  /-- No carriage return. -/
  carriageReturn : '\r' ∉ body

theorem escapesNext_append (s t : List Char) :
    escapesNext (s ++ t) = escapesFrom (escapesNext s) t :=
  List.foldl_append

/-- A character is escaped by what stands before it in its own escape only. -/
theorem escapesNext_escape (c : Char) : escapesNext (escape c) = false := by
  unfold escape
  split_ifs with h₁ h₂ h₃ h₄ h₅
  · rfl
  · rfl
  · rfl
  · rfl
  · rfl
  · simp [escapesNext, escapesFrom, h₁]

theorem escapesNext_escape_append (c : Char) (t : List Char) :
    escapesNext (escape c ++ t) = escapesNext t := by
  rw [escapesNext_append, escapesNext_escape, escapesNext]

theorem escapesNext_escaped (cs : List Char) : escapesNext (cs.flatMap escape) = false := by
  induction cs with
  | nil => rfl
  | cons c cs ih => rw [List.flatMap_cons, escapesNext_escape_append, ih]

theorem eq_of_quote_mem_escape {c : Char} (h : '\'' ∈ escape c) : c = '\'' := by
  unfold escape at h
  split_ifs at h with h₁ h₂ h₃ h₄ h₅
  · exact absurd h (by decide)
  · exact h₂
  · exact absurd h (by decide)
  · exact absurd h (by decide)
  · exact absurd h (by decide)
  · exact (List.mem_singleton.mp h).symm

/-- The only quote in an escape is escaped. -/
theorem escapesNext_of_escape_eq {c : Char} {before after : List Char}
    (h : escape c = before ++ '\'' :: after) : escapesNext before = true := by
  have hmem : '\'' ∈ escape c := by
    rw [h]
    exact List.mem_append_right before List.mem_cons_self
  obtain rfl := eq_of_quote_mem_escape hmem
  have hescape : escape '\'' = ['\\', '\''] := rfl
  rw [hescape] at h
  cases before with
  | nil => simp at h
  | cons b before =>
    obtain ⟨rfl, hrest⟩ := List.cons.inj h
    cases before with
    | nil => rfl
    | cons b' before => simp at hrest

/-- Every quote among escaped characters is escaped. -/
theorem escapesNext_of_escaped_eq {cs before after : List Char}
    (h : cs.flatMap escape = before ++ '\'' :: after) : escapesNext before = true := by
  induction cs generalizing before with
  | nil => simp at h
  | cons c cs ih =>
    rw [List.flatMap_cons, List.append_eq_append_iff] at h
    rcases h with ⟨more, rfl, hmore⟩ | ⟨more, hescape, hmore⟩
    · rw [escapesNext_escape_append]
      exact ih hmore
    · cases more with
      | nil =>
        -- The next character would begin with a quote that nothing escapes.
        have hfirst : cs.flatMap escape = [] ++ '\'' :: after := hmore.symm
        exact absurd (ih hfirst) Bool.false_ne_true
      | cons b more =>
        obtain ⟨rfl, -⟩ := List.cons.inj hmore
        exact escapesNext_of_escape_eq hescape

/-- The characters of a string, as they are written, cannot leave the quotes around them. -/
theorem isEnclosed_escaped (s : String) : IsEnclosed (s.toList.flatMap escape) := by
  have hline : IsLine (quote s) := isLine_quote s
  simp only [IsLine, quote, String.toList_ofList, List.mem_cons, List.cons_append, List.mem_append,
    not_or] at hline
  obtain ⟨⟨-, hfeed, -⟩, -, hreturn, -⟩ := hline
  exact ⟨fun _ _ => escapesNext_of_escaped_eq, escapesNext_escaped _, hfeed, hreturn⟩

theorem toList_quote (s : String) :
    (quote s).toList = '\'' :: (s.toList.flatMap escape ++ ['\'']) :=
  String.toList_ofList

/-- **Strings in quotes are told apart.** -/
theorem quote_injective : Function.Injective quote := by
  intro s t h
  have hs := stringLiteral_quote s []
  rw [h, stringLiteral_quote t []] at hs
  exact (congrArg Prod.fst (Option.some.inj hs)).symm

/-! ### Names -/

/-- The text is a name: a character that may begin one, and then any that may go on with it. -/
def IsName (s : String) : Prop :=
  ∃ c cs, s.toList = c :: cs ∧ beginsName c = true ∧ ∀ d ∈ cs, continuesName d = true

theorem isIdentifier_iff (s : String) : isIdentifier s = true ↔ IsName s := by
  unfold isIdentifier IsName
  cases s.toList with
  | nil => simp
  | cons c cs =>
    rw [Bool.and_eq_true, List.all_eq_true]
    constructor
    · rintro ⟨hc, hcs⟩
      exact ⟨c, cs, rfl, hc, hcs⟩
    · rintro ⟨d, ds, heq, hd, hds⟩
      obtain ⟨rfl, rfl⟩ := List.cons.inj heq
      exact ⟨hd, hds⟩

/-- A key stands without quotes exactly where it is a name. -/
theorem key_cases (s : String) : (IsName s ∧ key s = s) ∨ (¬ IsName s ∧ key s = quote s) := by
  rw [← isIdentifier_iff]
  by_cases hname : isIdentifier s = true
  · exact .inl ⟨hname, if_pos hname⟩
  · exact .inr ⟨hname, if_neg hname⟩

/-! ### Literals -/

/-- A literal is one expression. -/
theorem read?_literal (v : Json) : read? (literal v) = some (.ofJson v) := by
  have hread := expression_literal v (stops_nil Json.continuesToken)
  rw [List.append_nil] at hread
  rw [read?, run, hread]

/-- **Literals are read back**, each as one expression: the same value, with its keys in their order and
its numbers as numerals. No string is written like another one, and none leaves its quotes, whatever
characters it has. A key stands without quotes exactly where it is a name. -/
theorem literal_reads_back :
    (∀ v : Json, read? (literal v) = some (.ofJson v))
      ∧ Function.Injective quote
      ∧ (∀ s, ∃ body, (quote s).toList = '\'' :: (body ++ ['\'']) ∧ IsEnclosed body)
      ∧ ∀ s, (IsName s ∧ key s = s) ∨ (¬ IsName s ∧ key s = quote s) :=
  ⟨read?_literal, quote_injective, fun s => ⟨_, toList_quote s, isEnclosed_escaped s⟩, key_cases⟩

end Handoff.Script
