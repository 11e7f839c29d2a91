import Handoff.Proofs.Json.Induction
import Handoff.Proofs.Script.Reader

/-!
# Script literals are read back

Whatever value is written, its literal is read back as that value, numbers as
the numerals they are written as (`expression_literal`). The induction is on the
parts of the value, and what it carries is that the literal is read wherever it
ends, at any depth that is enough for the value (`ReadsBack`).
-/

namespace Handoff.Script

open Handoff.Parser Handoff.Json

/-! ### What is written -/

namespace Value

mutual
/-- A JSON value with its numbers as numerals. One that has no numeral is written as `null`. -/
def ofJson : Json → Value
  | .null => .null
  | .bool b => .bool b
  | .integer n => .number n.repr
  | .float x => if x.isFinite then .number (floatText x) else .null
  | .string s => .string s
  | .array items => .array (ofItems items)
  | .object fields => .object (ofFields fields)
/-- `ofJson` on each item. -/
def ofItems : List Json → List Value
  | [] => []
  | item :: more => ofJson item :: ofItems more
/-- `ofJson` on each field. -/
def ofFields : List (String × Json) → List (String × Value)
  | [] => []
  | (name, value) :: more => (name, ofJson value) :: ofFields more
end

theorem ofItems_eq_map (items : List Json) : ofItems items = items.map ofJson := by
  induction items with
  | nil => rfl
  | cons item more ih => simp [ofItems, ih]

theorem ofFields_eq_map (fields : List (String × Json)) :
    ofFields fields = fields.map fun f => (f.1, ofJson f.2) := by
  induction fields with
  | nil => rfl
  | cons field more ih => simp [ofFields, ih]

end Value

theorem literals_eq_map (items : List Json) : literals items = items.map literal := by
  induction items with
  | nil => rfl
  | cons item more ih => simp [literals, ih]

theorem entries_eq_map (fields : List (String × Json)) :
    entries fields = fields.map fun f => key f.1 ++ ": " ++ literal f.2 := by
  induction fields with
  | nil => rfl
  | cons field more ih => simp [entries, ih]

variable {α : Type} {part : Parser α} {opening closing : Char}

/-! ### Values -/

theorem listed_stops {s : List Char} (h : s.head? ≠ some opening) :
    listed opening closing part s = none := by
  cases s with
  | nil => rfl
  | cons c s =>
    have hc : c ≠ opening := by simpa using h
    simp [listed, hc]

theorem value_eq_scalar (depth : Nat) {s : List Char} (h₁ : s.head? ≠ some '[')
    (h₂ : s.head? ≠ some '\x7b') : value depth s = scalar s := by
  cases depth with
  | zero => rfl
  | succ depth => simp [value, listed_stops h₁, listed_stops h₂]

/-- What begins with neither of the brackets nor a quote is read as a numeral or a word. -/
theorem value_cons (depth : Nat) {c : Char} (cs : List Char)
    (h : c ≠ '[' ∧ c ≠ '\x7b' ∧ c ≠ '\'') :
    value depth (c :: cs)
      = (((fun t => Value.number (.ofList t)) <$> numeral) (c :: cs)).or (word (c :: cs)) := by
  have hquote : stringLiteral (c :: cs) = none := stringLiteral_stops (by simpa using h.2.2)
  rw [value_eq_scalar depth (by simpa using h.1) (by simpa using h.2.1)]
  simp [scalar, hquote]

theorem value_quote (depth : Nat) (s : String) (rest : List Char) :
    value depth ((quote s).toList ++ rest) = some (.string s, rest) := by
  rw [value_eq_scalar depth (by simp [quote]) (by simp [quote])]
  simp [scalar, stringLiteral_quote]

theorem value_numeral (depth : Nat) {t rest : List Char} (ht : IsNumeral t)
    (hrest : Stops continuesToken rest) :
    value depth (t ++ rest) = some (.number (.ofList t), rest) := by
  have hread := ht rest hrest
  obtain ⟨c, cs, rfl, hc⟩ := ht.head
  have hne : c ≠ '[' ∧ c ≠ '\x7b' ∧ c ≠ '\'' := by
    refine ⟨?_, ?_, ?_⟩ <;> rintro rfl <;> exact absurd hc (by decide)
  rw [List.cons_append] at hread ⊢
  rw [value_cons depth _ hne, map_apply, hread]
  rfl

/-- A letter is no digit. -/
theorem isDigit_of_isAlpha {c : Char} (h : c.isAlpha = true) : c.isDigit = false := by
  have hcode : (65 ≤ c.val.toNat ∧ c.val.toNat ≤ 90) ∨ (97 ≤ c.val.toNat ∧ c.val.toNat ≤ 122) := by
    rcases Bool.or_eq_true_iff.mp h with h | h
    · exact .inl (by simpa [UInt32.le_iff_toNat_le] using of_decide_eq_true h)
    · exact .inr (by simpa [UInt32.le_iff_toNat_le] using Bool.and_eq_true_iff.mp h)
  refine Bool.eq_false_iff.mpr fun hdigit => ?_
  have hrange : 48 ≤ c.val.toNat ∧ c.val.toNat ≤ 57 := by
    simpa [UInt32.le_iff_toNat_le] using Bool.and_eq_true_iff.mp hdigit
  omega

/-- What begins an identifier begins no numeral. -/
theorem not_numeral_of_startsIdentifier {c : Char} (h : startsIdentifier c = true) :
    c ≠ '-' ∧ c.isDigit = false := by
  constructor
  · rintro rfl
    exact absurd h (by decide)
  · simp only [startsIdentifier, Bool.or_eq_true, decide_eq_true_eq] at h
    rcases h with (h | rfl) | rfl
    · exact isDigit_of_isAlpha h
    · rfl
    · rfl

theorem value_word (depth : Nat) {w : String} {v : Value} (hid : isIdentifier w = true)
    (hv : wordValue? w = some v) {rest : List Char} (hrest : Stops continuesToken rest) :
    value depth (w.toList ++ rest) = some (v, rest) := by
  have hword : word (w.toList ++ rest) = some (v, rest) := by
    rw [word, bind_run (name_identifier hid hrest), hv]
    rfl
  cases hl : w.toList with
  | nil => simp [isIdentifier, hl] at hid
  | cons c cs =>
    simp only [isIdentifier, hl, Bool.and_eq_true] at hid
    have hne : c ≠ '[' ∧ c ≠ '\x7b' ∧ c ≠ '\'' := by
      refine ⟨?_, ?_, ?_⟩ <;> rintro rfl <;> exact absurd hid.1 (by decide)
    obtain ⟨hminus, hdigit⟩ := not_numeral_of_startsIdentifier hid.1
    rw [hl, List.cons_append] at hword
    rw [List.cons_append, value_cons depth _ hne, map_apply, numeral_stops hminus hdigit, hword]
    rfl

/-- What begins neither a bracket nor a string, a numeral or a word begins no value. -/
theorem value_stops (depth : Nat) {c : Char} (h : c ∉ ['[', '\x7b', '\'', '-'])
    (hdigit : c.isDigit = false) (hname : beginsName c = false) (rest : List Char) :
    value depth (c :: rest) = none := by
  simp only [List.mem_cons, List.not_mem_nil, or_false, not_or] at h
  obtain ⟨hbracket, hbrace, hquote, hminus⟩ := h
  have hword : name (c :: rest) = none := by simp [name, hname]
  rw [value_cons depth rest ⟨hbracket, hbrace, hquote⟩, map_apply, numeral_stops hminus hdigit,
    word, bind_apply, hword]
  rfl

theorem isClosing_bracket : IsClosing ']' := ⟨rfl, rfl, by decide⟩

theorem isClosing_brace : IsClosing '\x7d' := ⟨rfl, rfl, by decide⟩

theorem isPart_quote (depth : Nat) (s : String) :
    IsPart (value depth) (quote s).toList (.string s) where
  start := ⟨'\'', s.toList.flatMap escape ++ ['\''], by simp [quote], rfl⟩
  read _ _ := value_quote depth s _

theorem isPart_numeral (depth : Nat) {t : List Char} (ht : IsNumeral t) :
    IsPart (value depth) t (.number (.ofList t)) where
  start := by
    obtain ⟨c, cs, h, hc⟩ := ht.head
    refine ⟨c, cs, h, ?_⟩
    by_contra hb
    simp only [isBlank, Bool.not_eq_false, Bool.or_eq_true, decide_eq_true_eq] at hb
    rcases hb with ((rfl | rfl) | rfl) | rfl <;> exact absurd hc (by decide)
  read _ hrest := value_numeral depth ht hrest

theorem isPart_null (depth : Nat) : IsPart (value depth) "null".toList .null where
  start := ⟨'n', ['u', 'l', 'l'], rfl, rfl⟩
  read _ hrest := value_word depth rfl rfl hrest

theorem isPart_bool (depth : Nat) (b : Bool) :
    IsPart (value depth) (if b then "true" else "false").toList (.bool b) := by
  cases b with
  | true => exact ⟨⟨'t', ['r', 'u', 'e'], rfl, rfl⟩, fun _ hrest => value_word depth rfl rfl hrest⟩
  | false =>
    exact ⟨⟨'f', ['a', 'l', 's', 'e'], rfl, rfl⟩, fun _ hrest => value_word depth rfl rfl hrest⟩

theorem isPart_float (depth : Nat) (x : Binary64) :
    IsPart (value depth) (floatText x).toList (.ofJson (.float x)) := by
  by_cases hx : x.isFinite
  · simpa [floatText, Value.ofJson, hx] using isPart_numeral depth (isNumeral_text hx)
  · simpa [floatText, Value.ofJson, hx] using isPart_null depth

/-- The text of a field is read as one if that of its value is read. -/
theorem isPart_field {depth : Nat} {f : String × Json} {v : Value}
    (h : IsPart (value depth) (literal f.2).toList v) :
    IsPart (field (value depth)) (key f.1 ++ ": " ++ literal f.2).toList (f.1, v) where
  start := by
    rw [key]
    split
    · next hid =>
      cases hl : f.1.toList with
      | nil => simp [isIdentifier, hl] at hid
      | cons c cs =>
        simp only [isIdentifier, hl, Bool.and_eq_true] at hid
        refine ⟨c, cs ++ (": ".toList ++ (literal f.2).toList), by simp [hl], ?_⟩
        by_contra hb
        simp only [isBlank, Bool.not_eq_false, Bool.or_eq_true, decide_eq_true_eq] at hb
        rcases hb with ((rfl | rfl) | rfl) | rfl <;> exact absurd hid.1 (by decide)
    · refine ⟨'\'', f.1.toList.flatMap escape ++ '\'' :: (": ".toList ++ (literal f.2).toList), ?_, rfl⟩
      simp [quote]
  read rest hrest := by
    have hkey : (stringLiteral <|> name)
        ((key f.1).toList ++ (':' :: ' ' :: ((literal f.2).toList ++ rest)))
        = some (f.1, ':' :: ' ' :: ((literal f.2).toList ++ rest)) :=
      stringLiteral_or_name_key f.1 (by simp; rfl)
    have hcolon : blanks (':' :: ' ' :: ((literal f.2).toList ++ rest))
        = some ((), ':' :: ' ' :: ((literal f.2).toList ++ rest)) :=
      blanks_run [] (by simp) (by simp [isBlank])
    have hblank : blanks (' ' :: ((literal f.2).toList ++ rest))
        = some ((), (literal f.2).toList ++ rest) := by
      obtain ⟨c, cs, hl, hc⟩ := h.start
      exact blanks_run [' '] (by simp [isBlank]) (by simpa [hl] using hc)
    rw [show (key f.1 ++ ": " ++ literal f.2).toList ++ rest
      = (key f.1).toList ++ (':' :: ' ' :: ((literal f.2).toList ++ rest)) by simp]
    rw [field, bind_run hkey, bind_run hcolon, bind_run (by rw [char_cons]; exact if_pos rfl),
      bind_run hblank, bind_run (h.read rest hrest)]
    rfl

/-- The literal of a value is read back, wherever it ends. -/
def ReadsBack (v : Json) : Prop :=
  ∀ depth, v.depth ≤ depth → IsPart (value depth) (literal v).toList (.ofJson v)

/-- The text of a field. -/
def fieldText (f : String × Json) : List Char := (key f.1 ++ ": " ++ literal f.2).toList

theorem toList_literal_array (items : List Json) : (literal (.array items)).toList
    = '[' :: ([',', ' '].intercalate (items.map fun v => (literal v).toList) ++ [']']) := by
  rw [literal, literals_eq_map, String.toList_append, String.toList_append,
    String.toList_intercalate, List.map_map]
  rfl

theorem toList_literal_object {fields : List (String × Json)} (hne : fields ≠ []) :
    (literal (.object fields)).toList
      = '\x7b' :: ' ' :: ([',', ' '].intercalate (fields.map fieldText) ++ [' ', '\x7d']) := by
  obtain ⟨f, more, rfl⟩ := List.exists_cons_of_ne_nil hne
  rw [literal, entries_eq_map, String.toList_append, String.toList_append,
    String.toList_intercalate, List.map_map]
  rfl

theorem value_array {depth : Nat} {s rest : List Char} {items : List Value}
    (h : listed '[' ']' (value depth) s = some (items, rest)) :
    value (depth + 1) s = some (.array items, rest) := by
  simp [value, h]

theorem value_object {depth : Nat} {s rest : List Char} {fields : List (String × Value)}
    (h : listed '\x7b' '\x7d' (field (value depth)) ('\x7b' :: s) = some (fields, rest)) :
    value (depth + 1) ('\x7b' :: s) = some (.object fields, rest) := by
  have hlist : listed '[' ']' (value depth) ('\x7b' :: s) = none := listed_stops (by simp)
  simp [value, h, hlist]

theorem readsBack_array {items : List Json} (h : ∀ v ∈ items, ReadsBack v) :
    ReadsBack (.array items) := by
  intro depth hdepth
  simp only [Json.depth] at hdepth
  obtain ⟨depth, rfl⟩ : ∃ d, depth = d + 1 := ⟨depth - 1, by omega⟩
  let parts := items.map fun v => ((literal v).toList, Value.ofJson v)
  have hparts : ∀ i ∈ parts, IsPart (value depth) i.1 i.2 := by
    intro i hi
    obtain ⟨v, hv, rfl⟩ := List.mem_map.mp hi
    exact h v hv depth ((depth_le_of_mem_items hv).trans (by omega))
  have hvalue : Value.ofJson (.array items) = .array (parts.map Prod.snd) := by
    simp [parts, Value.ofJson, Value.ofItems_eq_map, Function.comp_def]
  rw [toList_literal_array, hvalue]
  rw [show (items.map fun v => (literal v).toList) = parts.map Prod.fst by
    simp [parts, Function.comp_def]]
  refine ⟨⟨'[', _, rfl, rfl⟩, fun rest _ => value_array ?_⟩
  by_cases hne : parts = []
  · rw [hne]
    exact listed_empty '[' (value depth) isClosing_bracket rest
      (value_stops depth (by decide) rfl rfl rest)
  · simpa using listed_run '[' isClosing_bracket [] (by simp) hne hparts rest

theorem readsBack_object {fields : List (String × Json)} (h : ∀ f ∈ fields, ReadsBack f.2) :
    ReadsBack (.object fields) := by
  intro depth hdepth
  simp only [Json.depth] at hdepth
  obtain ⟨depth, rfl⟩ : ∃ d, depth = d + 1 := ⟨depth - 1, by omega⟩
  let parts := fields.map fun f => (fieldText f, (f.1, Value.ofJson f.2))
  have hparts : ∀ i ∈ parts, IsPart (field (value depth)) i.1 i.2 := by
    intro i hi
    obtain ⟨f, hf, rfl⟩ := List.mem_map.mp hi
    exact isPart_field (h f hf depth ((depth_le_of_mem_fields hf).trans (by omega)))
  have hvalue : Value.ofJson (.object fields) = .object (parts.map Prod.snd) := by
    simp [parts, Value.ofJson, Value.ofFields_eq_map, Function.comp_def]
  rw [hvalue]
  by_cases hne : fields = []
  · subst hne
    refine ⟨⟨'\x7b', ['\x7d'], by simp [literal], rfl⟩, fun rest _ => ?_⟩
    have hread := listed_empty '\x7b' (field (value depth)) isClosing_brace rest rfl
    simpa [literal, parts] using value_object hread
  · rw [toList_literal_object hne]
    rw [show fields.map fieldText = parts.map Prod.fst by simp [parts, Function.comp_def]]
    refine ⟨⟨'\x7b', _, rfl, rfl⟩, fun rest _ => value_object ?_⟩
    have hparts_ne : parts ≠ [] := by simpa [parts] using hne
    simpa using listed_run '\x7b' isClosing_brace [' '] (by simp [isBlank]) hparts_ne hparts rest

/-- **Literals are read back**, wherever they end. -/
theorem readsBack (v : Json) : ReadsBack v := by
  induction v using Json.parts_induction with
  | null => exact fun depth _ => isPart_null depth
  | bool b => exact fun depth _ => isPart_bool depth b
  | integer n =>
    intro depth _
    simpa [Value.ofJson, literal] using isPart_numeral depth (isNumeral_repr n)
  | float x => exact fun depth _ => isPart_float depth x
  | string s => exact fun depth _ => isPart_quote depth s
  | array items h => exact readsBack_array h
  | object fields h => exact readsBack_object h

/-! ### Depth and length -/

theorem length_le_intercalate (separator : List Char) {t : List Char} {ts : List (List Char)}
    (h : t ∈ ts) : t.length ≤ (separator.intercalate ts).length := by
  induction ts with
  | nil => simp at h
  | cons u ts ih =>
    by_cases hts : ts = []
    · obtain rfl : t = u := by simpa [hts] using h
      simp [hts]
    · rw [List.intercalate_cons_of_ne_nil hts]
      simp only [List.length_append]
      rcases List.mem_cons.mp h with rfl | h
      · omega
      · have := ih h
        omega

/-- No value is nested deeper than its literal is long. -/
theorem depth_le_length (v : Json) : v.depth ≤ (literal v).toList.length := by
  induction v using Json.parts_induction with
  | null | bool _ | integer _ | float _ | string _ => simp [Json.depth]
  | array items h =>
    have hitems := depthOfItems_le fun v hv => (h v hv).trans
      (length_le_intercalate [',', ' '] (List.mem_map_of_mem (f := fun v => (literal v).toList) hv))
    rw [toList_literal_array]
    simp only [Json.depth, List.length_cons, List.length_append]
    omega
  | object fields h =>
    by_cases hne : fields = []
    · subst hne
      simp [Json.depth, depthOfFields, literal]
    · have hfield : ∀ f ∈ fields, f.2.depth ≤ (fieldText f).length := by
        intro f hf
        have := h f hf
        simp only [fieldText, String.toList_append, List.length_append]
        omega
      have hfields := depthOfFields_le fun f hf => (hfield f hf).trans
        (length_le_intercalate [',', ' '] (List.mem_map_of_mem hf))
      rw [toList_literal_object hne]
      simp only [Json.depth, List.length_cons, List.length_append]
      omega

/-- A literal is read as an expression, wherever it ends. -/
theorem expression_literal (v : Json) {rest : List Char} (hrest : Stops continuesToken rest) :
    expression ((literal v).toList ++ rest) = some (.ofJson v, rest) := by
  refine (readsBack v _ ?_).read rest hrest
  have := depth_le_length v
  rw [List.length_append]
  omega

end Handoff.Script
