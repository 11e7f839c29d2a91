import Handoff.Proofs.Json.Numeral
import Handoff.Script
import Mathlib.Tactic.SplitIfs

/-!
# Reading script literals

The grammar of literals in a script, as a parser: words, numerals, strings in
single quotes with escapes, lists, and objects whose keys are identifiers or
strings. It takes no text whose meaning could be in doubt: no escape beyond the
five that are written, no break of a line inside a string, no comma too many.

Beside the grammar stands how its parts read what is written: strings and keys,
and lists in brackets whose parts can be read (`listed_run`).
-/

namespace Handoff.Script

open Handoff.Parser Handoff.Json

/-- What a literal stands for. A number is kept as the numeral it is written as. -/
inductive Value where
  /-- The word `null`. -/
  | null
  /-- One of the words `true` and `false`. -/
  | bool (value : Bool)
  /-- A numeral. -/
  | number (numeral : String)
  /-- A text. -/
  | string (value : String)
  /-- A list of values. -/
  | array (items : List Value)
  /-- Values under keys, in order. -/
  | object (fields : List (String × Value))

/-! ### The grammar -/

/-- What a character after a backslash stands for. -/
def unescape? : Char → Option Char
  | '\\' => some '\\'
  | '\'' => some '\''
  | 'n' => some '\n'
  | 'r' => some '\r'
  | 't' => some '\t'
  | _ => none

/-- One character of a string in single quotes. -/
def stringChar : Parser Char := do
  let c ← satisfy fun c => c ≠ '\'' && c ≠ '\n' && c ≠ '\r'
  if c = '\\' then lift (unescape? (← satisfy fun _ => true)) else return c

/-- A string in single quotes. -/
def stringLiteral : Parser String := do
  char '\''
  let cs ← many stringChar
  char '\''
  return .ofList cs

/-- Whether a character may begin a name: an ASCII letter, a low line or a dollar sign. -/
def beginsName (c : Char) : Bool := c.isAlpha || c = '_' || c = '$'

/-- Whether a character may go on with a name: one that may begin it, or a digit. -/
def continuesName (c : Char) : Bool := c.isAlphanum || c = '_' || c = '$'

/-- A name. -/
def name : Parser String := do
  let c ← satisfy beginsName
  let cs ← takeWhile continuesName
  return .ofList (c :: cs)

/-- The words that are values. -/
def wordValue? : String → Option Value
  | "null" => some .null
  | "true" => some (.bool true)
  | "false" => some (.bool false)
  | _ => none

/-- A word that is a value. -/
def word : Parser Value := do
  lift (wordValue? (← name))

/-- A value without parts. -/
def scalar : Parser Value :=
  (Value.string <$> stringLiteral) <|> ((fun t => Value.number (.ofList t)) <$> numeral) <|> word

/-- Parts between brackets, separated by commas, with blanks between any two of these. -/
def listed {α : Type} (opening closing : Char) (part : Parser α) : Parser (List α) := do
  char opening
  let parts ← option (sepBy1 (blanks *> part) (blanks *> char ','))
  blanks
  char closing
  return parts.getD []

/-- A key with its value after a colon. -/
def field (value : Parser Value) : Parser (String × Value) := do
  let key ← stringLiteral <|> name
  blanks
  char ':'
  blanks
  return (key, ← value)

/-- A value in which lists and objects are nested at most `depth` deep. -/
def value : Nat → Parser Value
  | 0 => scalar
  | depth + 1 =>
    (Value.array <$> listed '[' ']' (value depth))
      <|> (Value.object <$> listed '\x7b' '\x7d' (field (value depth)))
      <|> scalar

/-- A value. None is nested deeper than its text is long. -/
def expression : Parser Value := fun s => value s.length s

/-- The value whose literal a text is. -/
def read? (s : String) : Option Value := expression.run s.toList

/-! ### Strings and keys -/

theorem escape_ne_nil (c : Char) : escape c ≠ [] := by
  unfold escape
  split_ifs <;> simp

/-- One character of a string is read back from what it is written as. -/
theorem stringChar_escape (c : Char) (rest : List Char) :
    stringChar (escape c ++ rest) = some (c, rest) := by
  unfold escape
  split_ifs with h₁ h₂ h₃ h₄ h₅
  · subst h₁; rfl
  · subst h₂; rfl
  · subst h₃; rfl
  · subst h₄; rfl
  · subst h₅; rfl
  · simp [stringChar, h₁, h₂, h₃, h₄]

/-- Quoted strings are read back. -/
theorem stringLiteral_quote (s : String) (rest : List Char) :
    stringLiteral ((quote s).toList ++ rest) = some (s, rest) := by
  have hmany := many_flatMap escape id s.toList (fun c _ => escape_ne_nil c)
    (fun c _ => stringChar_escape c) (show stringChar ('\'' :: rest) = none from rfl)
  simp [stringLiteral, quote, hmany]

theorem stringLiteral_stops {rest : List Char} (h : rest.head? ≠ some '\'') :
    stringLiteral rest = none := by
  cases rest with
  | nil => rfl
  | cons c rest =>
    have hc : c ≠ '\'' := by simpa using h
    simp [stringLiteral, hc]

theorem stops_continuesName {rest : List Char} (h : Stops continuesToken rest) :
    Stops continuesName rest := by
  intro c hc
  have := h c hc
  simp only [continuesToken, Bool.or_eq_false_iff] at this
  simp [continuesName, this]

/-- An identifier is read as a name. -/
theorem name_identifier {s : String} (hs : isIdentifier s = true) {rest : List Char}
    (hrest : Stops continuesToken rest) : name (s.toList ++ rest) = some (s, rest) := by
  unfold isIdentifier at hs
  cases hl : s.toList with
  | nil => simp [hl] at hs
  | cons c cs =>
    simp only [hl, Bool.and_eq_true, List.all_eq_true] at hs
    have hcs : takeWhile continuesName (cs ++ rest) = some (cs, rest) :=
      takeWhile_run hs.2 (stops_continuesName hrest)
    rw [List.cons_append, name, bind_run (by rw [satisfy_cons]; exact if_pos hs.1), bind_run hcs]
    rw [← hl, String.ofList_toList]
    rfl

/-- A key is read back, whether it is written in quotes or not. -/
theorem stringLiteral_or_name_key (s : String) {rest : List Char} (hrest : Stops continuesToken rest) :
    (stringLiteral <|> name) ((key s).toList ++ rest) = some (s, rest) := by
  rw [orElse_apply, key]
  split
  · next hs =>
    rw [stringLiteral_stops, name_identifier hs hrest]
    · rfl
    · unfold isIdentifier at hs
      cases hl : s.toList with
      | nil => simp [hl] at hs
      | cons c cs =>
        simp only [hl, Bool.and_eq_true] at hs
        rintro h
        obtain rfl : c = '\'' := by simpa using h
        exact absurd hs.1 (by decide)
  · rw [stringLiteral_quote]
    rfl

/-! ### Parts in brackets -/

/-- A blank between the parts of a value. -/
def isBlank (c : Char) : Bool := c = ' ' || c = '\t' || c = '\n' || c = '\r'

theorem blanks_run (pad : List Char) {rest : List Char} (hpad : ∀ c ∈ pad, isBlank c = true)
    (hrest : Stops isBlank rest) : blanks (pad ++ rest) = some ((), rest) :=
  bind_run (takeWhile_run hpad hrest)

theorem continuesToken_blank {c : Char} (h : isBlank c = true) : continuesToken c = false := by
  simp only [isBlank, Bool.or_eq_true, decide_eq_true_eq] at h
  rcases h with ((rfl | rfl) | rfl) | rfl <;> rfl

/-- The text of a part: it does not begin with a blank, and is read wherever it ends. -/
structure IsPart {α : Type} (part : Parser α) (t : List Char) (a : α) : Prop where
  start : ∃ c cs, t = c :: cs ∧ isBlank c = false
  read : ∀ rest, Stops continuesToken rest → part (t ++ rest) = some (a, rest)

/-- A bracket that closes a list is no part of it. -/
structure IsClosing (c : Char) : Prop where
  token : continuesToken c = false
  blank : isBlank c = false
  comma : c ≠ ','

variable {α : Type} {part : Parser α} {opening closing : Char}

theorem IsPart.blanks_read {t : List Char} {a : α} (h : IsPart part t a) (pad : List Char)
    (hpad : ∀ c ∈ pad, isBlank c = true) {rest : List Char} (hrest : Stops continuesToken rest) :
    (blanks *> part) (pad ++ (t ++ rest)) = some (a, rest) := by
  have hblanks : blanks (pad ++ (t ++ rest)) = some ((), t ++ rest) := by
    obtain ⟨c, cs, rfl, hc⟩ := h.start
    exact blanks_run pad hpad (by simpa using hc)
  rw [seqRight_apply, hblanks]
  exact h.read rest hrest

/-- The text of further parts, each after a comma and a blank. -/
def further (more : List (List Char × α)) : List (List Char × α) :=
  more.map fun i => (',' :: ' ' :: i.1, i.2)

theorem stops_further (more : List (List Char × α)) {rest : List Char}
    (hrest : Stops continuesToken rest) : Stops continuesToken (written (further more) ++ rest) := by
  cases more with
  | nil => exact hrest
  | cons i more =>
    simp [further]
    rfl

theorem readsParts_further {more : List (List Char × α)} (h : ∀ i ∈ more, IsPart part i.1 i.2)
    {rest : List Char} (hrest : Stops continuesToken rest) :
    ReadsParts ((blanks *> char ',') *> (blanks *> part)) rest (further more) := by
  induction more with
  | nil => exact .nil
  | cons i more ih =>
    have hpart := (h i (by simp)).blanks_read [' '] (by simp [isBlank])
      (stops_further more hrest)
    refine .cons (by simp) ?_ (ih fun j hj => h j (by simp [hj]))
    have hcomma : (blanks *> char ',') (',' :: ' ' :: (i.1 ++ (written (further more) ++ rest)))
        = some ((), ' ' :: (i.1 ++ (written (further more) ++ rest))) := by
      rw [seqRight_apply, show ∀ s, blanks (',' :: s) = some ((), ',' :: s) from
        fun s => blanks_run [] (by simp) (by simp [isBlank])]
      rfl
    change ((blanks *> char ',') *> (blanks *> part))
      (',' :: ' ' :: (i.1 ++ (written (further more) ++ rest))) = _
    rw [seqRight_apply, hcomma]
    exact hpart

theorem stops_closing (hc : IsClosing closing) (pad : List Char) (hpad : ∀ c ∈ pad, isBlank c = true)
    (rest : List Char) : Stops continuesToken (pad ++ closing :: rest) := by
  cases pad with
  | nil => simpa using hc.token
  | cons c pad => simpa using continuesToken_blank (hpad c (by simp))

theorem blanks_closing (hc : IsClosing closing) (pad : List Char) (hpad : ∀ c ∈ pad, isBlank c = true)
    (rest : List Char) : blanks (pad ++ closing :: rest) = some ((), closing :: rest) :=
  blanks_run pad hpad (by simpa using hc.blank)

theorem intercalate_further (i : List Char × α) (more : List (List Char × α)) :
    [',', ' '].intercalate ((i :: more).map Prod.fst) = i.1 ++ written (further more) := by
  induction more generalizing i with
  | nil => simp [further]
  | cons j more ih =>
    rw [List.map_cons, List.intercalate_cons_of_ne_nil (by simp), ih j]
    simp [further]

/-- One or more parts in brackets, with a comma and a blank between two of them, are read. -/
theorem listed_run (opening : Char) (hc : IsClosing closing) (pad : List Char)
    (hpad : ∀ c ∈ pad, isBlank c = true) {parts : List (List Char × α)} (hne : parts ≠ [])
    (h : ∀ i ∈ parts, IsPart part i.1 i.2) (rest : List Char) :
    listed opening closing part
      (opening :: (pad ++ ([',', ' '].intercalate (parts.map Prod.fst) ++ (pad ++ closing :: rest))))
      = some (parts.map Prod.snd, rest) := by
  obtain ⟨i, more, rfl⟩ := List.exists_cons_of_ne_nil hne
  rw [intercalate_further, List.append_assoc]
  have hstop := stops_closing hc pad hpad rest
  have hfirst := (h i (by simp)).blanks_read pad hpad (stops_further more hstop)
  have hnone : ((blanks *> char ',') *> (blanks *> part)) (pad ++ closing :: rest) = none := by
    rw [seqRight_apply, seqRight_apply, blanks_closing hc pad hpad]
    simp [hc.comma]
  have hmore : ∀ j ∈ more, IsPart part j.1 j.2 := fun j hj => h j (List.mem_cons_of_mem i hj)
  have hmany := many_parts (readsParts_further hmore hstop) hnone
  have hparts : option (sepBy1 (blanks *> part) (blanks *> char ','))
      (pad ++ (i.1 ++ (written (further more) ++ (pad ++ closing :: rest))))
      = some (some (i.2 :: more.map Prod.snd), pad ++ closing :: rest) := by
    refine option_some ?_
    rw [sepBy1, bind_run hfirst, bind_run hmany]
    simp [further, Function.comp_def]
  rw [listed, bind_run (by rw [char_cons]; exact if_pos rfl), bind_run hparts,
    bind_run (blanks_closing hc pad hpad rest), bind_run (by rw [char_cons]; exact if_pos rfl)]
  rfl

/-- Brackets with nothing inside are read. -/
theorem listed_empty (opening : Char) (part : Parser α) (hc : IsClosing closing) (rest : List Char)
    (hpart : part (closing :: rest) = none) :
    listed opening closing part (opening :: closing :: rest) = some ([], rest) := by
  have hblanks : blanks (closing :: rest) = some ((), closing :: rest) :=
    blanks_closing hc [] (by simp) rest
  have hparts : option (sepBy1 (blanks *> part) (blanks *> char ',')) (closing :: rest)
      = some (none, closing :: rest) := by
    refine option_none ?_
    rw [sepBy1, bind_apply, seqRight_apply, hblanks]
    simp [hpart]
  rw [listed, bind_run (by rw [char_cons]; exact if_pos rfl), bind_run hparts,
    bind_run hblanks, bind_run (by rw [char_cons]; exact if_pos rfl)]
  rfl

end Handoff.Script
