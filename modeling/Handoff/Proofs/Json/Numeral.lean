import Handoff.Json.Printer
import Handoff.Proofs.Binary64.Printing

/-!
# Numerals

The grammar of numbers in JSON, as a parser that gives the text of the numeral:
a minus sign, the digits before the point, which do not start with a zero unless
it stands alone, a fraction, and an exponent. What is put together from such parts
is a numeral (`numeral_run`), and whatever number is printed, what is printed has
them and stands for the digits it was printed from (`exists_parts_magnitude`). So
what is printed is a numeral (`isNumeral_repr`, `isNumeral_text`). A numeral has
none but a few characters, since the parser gives no others (`gives_numeral`).
-/

namespace Handoff.Json

open Handoff.Parser

/-! ### The grammar -/

/-- The text of an exponent: its letter, its sign, and digits. -/
def powerText : Parser (List Char) := do
  let letter ← satisfy fun c => c = 'e' || c = 'E'
  let sign ← option (satisfy fun c => c = '+' || c = '-')
  let digits ← takeWhile1 isDigit
  return letter :: (sign.toList ++ digits)

/-- The text of a numeral. -/
def numeral : Parser (List Char) := do
  let sign ← option (char '-')
  let whole ← wholeDigits
  let fraction ← option (char '.' *> takeWhile1 isDigit)
  let power ← option powerText
  return (if sign.isSome then ['-'] else []) ++ whole ++ (fraction.map ('.' :: ·)).getD []
    ++ power.getD []

/-- Whether a character could be one more of a numeral or of a word. -/
def continuesToken (c : Char) : Bool := c.isAlphanum || c = '_' || c = '$' || c = '.'

/-! ### Parts of a numeral -/

theorem isDigit_eq (c : Char) : Parser.isDigit c = c.isDigit := rfl

theorem stops_isDigit {rest : List Char} (h : Stops continuesToken rest) : Stops isDigit rest := by
  intro c hc
  have := h c hc
  simp only [continuesToken, Char.isAlphanum, Bool.or_eq_false_iff] at this
  simp [isDigit_eq, this]

/-- The digits before the point: not empty, and without a zero in front of others. -/
structure IsWhole (t : List Char) : Prop where
  ne_nil : t ≠ []
  digits : AllDigits t
  head : t.length > 1 → t.head? ≠ some '0'

theorem IsWhole.toDigits (n : Nat) : IsWhole (Nat.toDigits 10 n) where
  ne_nil := Nat.toDigits_ne_nil
  digits := allDigits_toDigits n
  head h := by
    refine head?_toDigits_ne ?_
    rintro rfl
    simp at h

/-- What follows a whole part with a first digit other than zero is arbitrary. -/
theorem IsWhole.of_head {t : List Char} (hne : t ≠ []) (ht : AllDigits t)
    (hhead : t.head? ≠ some '0') : IsWhole t := ⟨hne, ht, fun _ => hhead⟩

theorem digits_run {t rest : List Char} (hne : t ≠ []) (ht : AllDigits t)
    (hrest : Stops isDigit rest) : takeWhile1 isDigit (t ++ rest) = some (t, rest) :=
  takeWhile1_run hne ht hrest

theorem wholeDigits_run {t rest : List Char} (ht : IsWhole t) (hrest : Stops isDigit rest) :
    wholeDigits (t ++ rest) = some (t, rest) := by
  have hhead : ¬ (decide (t.length > 1) && decide (t.head? = some '0')) = true := by
    simpa using ht.head
  simp only [wholeDigits, bind_apply, digits_run ht.ne_nil ht.digits hrest, Option.bind_some]
  rw [if_neg hhead]
  rfl

/-- A fraction, if there is one, is not empty. -/
def IsFraction (fraction : Option (List Char)) : Prop := ∀ t ∈ fraction, t ≠ [] ∧ AllDigits t

/-- A numeral without its sign, taken apart. -/
structure Parts where
  /-- The digits before the point. -/
  whole : List Char
  /-- The digits behind the point, if there is one. -/
  fraction : Option (List Char)
  /-- The power of ten, if there is one. -/
  exponent : Option Int
  /-- There are digits before the point, and zero stands alone. -/
  isWhole : IsWhole whole
  /-- There are digits behind the point. -/
  isFraction : IsFraction fraction

/-- The text of a sign. -/
def signText (negative : Bool) : List Char := if negative then ['-'] else []

/-- The text of a fraction. -/
def fractionText (fraction : Option (List Char)) : List Char := (fraction.map ('.' :: ·)).getD []

/-- The sign of an exponent. -/
def powerSign (e : Int) : Char := if e < 0 then '-' else '+'

/-- The text of an exponent. -/
def exponentText (exponent : Option Int) : List Char :=
  (exponent.map fun e => 'e' :: powerSign e :: Nat.toDigits 10 e.natAbs).getD []

namespace Parts

/-- The text of the parts. -/
def text (p : Parts) : List Char := p.whole ++ (fractionText p.fraction ++ exponentText p.exponent)

/-- The decimal that the parts stand for. -/
def decimal (p : Parts) : Decimal :=
  ⟨ofDigits (p.whole ++ p.fraction.getD []), p.exponent.getD 0 - (p.fraction.getD []).length⟩

/-- There is neither point nor exponent. -/
def isInteger (p : Parts) : Bool := p.fraction.isNone && p.exponent.isNone

/-- The digits of an integer. -/
def ofNat (n : Nat) : Parts := ⟨Nat.toDigits 10 n, none, none, .toDigits n, by simp [IsFraction]⟩

theorem text_ofNat (n : Nat) : (ofNat n).text = Nat.toDigits 10 n := List.append_nil _

end Parts

/-! ### Parts are read -/

theorem char_stops {c : Char} {rest : List Char} (h : Stops continuesToken rest)
    (hc : continuesToken c = true) : char c rest = none := by
  cases rest with
  | nil => rfl
  | cons d rest =>
    rw [stops_cons] at h
    have hne : d ≠ c := by
      rintro rfl
      simp_all
    simp [hne]

/-- No exponent begins where a numeral has ended. -/
theorem powerLetter_stops {rest : List Char} (h : Stops continuesToken rest) :
    satisfy (fun c => c = 'e' || c = 'E') rest = none := by
  cases rest with
  | nil => rfl
  | cons c rest =>
    rw [stops_cons] at h
    refine if_neg fun hc => ?_
    rw [Bool.or_eq_true, decide_eq_true_iff, decide_eq_true_iff] at hc
    rcases hc with rfl | rfl <;> exact absurd h (by decide)

theorem powerSign_run (e : Int) (s : List Char) :
    option (satisfy fun c => c = '+' || c = '-') (powerSign e :: s)
      = some (some (powerSign e), s) := by
  unfold powerSign
  split <;> rfl

theorem powerDigits_run (e : Int) {rest : List Char} (hrest : Stops continuesToken rest) :
    takeWhile1 isDigit (Nat.toDigits 10 e.natAbs ++ rest) = some (Nat.toDigits 10 e.natAbs, rest) :=
  digits_run Nat.toDigits_ne_nil (allDigits_toDigits _) (stops_isDigit hrest)

theorem exponentText_append (e : Int) (rest : List Char) : exponentText (some e) ++ rest
    = 'e' :: powerSign e :: (Nat.toDigits 10 e.natAbs ++ rest) := rfl

theorem powerText_run (power : Option Int) {rest : List Char} (hrest : Stops continuesToken rest) :
    option powerText (exponentText power ++ rest)
      = some (power.map fun e => exponentText (some e), rest) := by
  cases power with
  | none =>
    refine option_none ?_
    change powerText rest = none
    rw [powerText, bind_apply, powerLetter_stops hrest]
    rfl
  | some e =>
    refine option_some ?_
    rw [exponentText_append, powerText, bind_run rfl, bind_run (powerSign_run e _),
      bind_run (powerDigits_run e hrest)]
    rfl

/-- What follows the digits of a numeral with these parts is no digit. -/
theorem stops_afterDigits (power : Option Int) {rest : List Char}
    (h : Stops continuesToken rest) : Stops isDigit (exponentText power ++ rest) := by
  cases power with
  | none => exact stops_isDigit h
  | some e => exact (stops_cons _ _ _).mpr rfl

theorem fraction_run (p : Parts) {rest : List Char} (hrest : Stops continuesToken rest) :
    option (char '.' *> takeWhile1 isDigit)
      (fractionText p.fraction ++ (exponentText p.exponent ++ rest))
      = some (p.fraction, exponentText p.exponent ++ rest) := by
  have hfraction := p.isFraction
  cases h : p.fraction with
  | none =>
    refine option_none ?_
    cases p.exponent with
    | none => simp [fractionText, exponentText, char_stops hrest (c := '.') rfl]
    | some e => simp [fractionText, exponentText]
  | some t =>
    obtain ⟨hne, ht⟩ := hfraction t h
    refine option_some ?_
    simp [fractionText, digits_run hne ht (stops_afterDigits p.exponent hrest)]

theorem whole_run (p : Parts) {rest : List Char} (hrest : Stops continuesToken rest) :
    wholeDigits (p.text ++ rest)
      = some (p.whole, fractionText p.fraction ++ (exponentText p.exponent ++ rest)) := by
  rw [Parts.text, List.append_assoc, List.append_assoc]
  refine wholeDigits_run p.isWhole ?_
  cases p.fraction with
  | none => exact stops_afterDigits p.exponent hrest
  | some t => exact (stops_cons _ _ _).mpr rfl

theorem sign_run (negative : Bool) (p : Parts) (rest : List Char) :
    option (char '-') (signText negative ++ (p.text ++ rest))
      = some (if negative then some () else none, p.text ++ rest) := by
  cases negative with
  | true => rfl
  | false =>
    obtain ⟨c, cs, hwhole⟩ := List.exists_cons_of_ne_nil p.isWhole.ne_nil
    have hc : c ≠ '-' := by
      rintro rfl
      exact absurd (p.isWhole.digits '-' (hwhole ▸ List.mem_cons_self)) (by decide)
    refine option_none ?_
    rw [Parts.text, hwhole]
    exact if_neg hc

/-- A text put together from the parts of a numeral is read as one. -/
theorem numeral_run (negative : Bool) (p : Parts) {rest : List Char}
    (hrest : Stops continuesToken rest) :
    numeral (signText negative ++ (p.text ++ rest)) = some (signText negative ++ p.text, rest) := by
  rw [numeral, bind_run (sign_run negative p rest), bind_run (whole_run p hrest),
    bind_run (fraction_run p hrest), bind_run (powerText_run p.exponent hrest), Parts.text]
  cases negative <;> cases p.fraction <;> cases p.exponent <;>
    simp [signText, fractionText, exponentText]

/-! ### Characters of a numeral -/

/-- Whether a character can stand in a numeral. -/
def isNumeralChar (c : Char) : Bool := isDigit c || c ∈ ['-', '+', '.', 'e', 'E']

theorem isNumeralChar_of_isDigit {t : List Char} (ht : ∀ c ∈ t, isDigit c = true) :
    ∀ c ∈ t, isNumeralChar c = true :=
  fun c hc => Bool.or_eq_true_iff.mpr (.inl (ht c hc))

theorem gives_powerText : Gives powerText fun t => ∀ c ∈ t, isNumeralChar c = true := by
  refine (gives_satisfy _).bind fun letter hletter => (gives_satisfy _).option.bind fun sign hsign =>
    (gives_takeWhile1 _).bind fun digits hdigits => gives_pure ?_
  refine List.forall_mem_cons.mpr ⟨?_, List.forall_mem_append.mpr ⟨fun c hc => ?_,
    isNumeralChar_of_isDigit hdigits⟩⟩
  · simp only [Bool.or_eq_true, decide_eq_true_eq] at hletter
    rcases hletter with rfl | rfl <;> rfl
  · have hc : c = '+' ∨ c = '-' := by simpa using hsign c (Option.mem_toList.mp hc)
    rcases hc with rfl | rfl <;> rfl

theorem gives_wholeDigits : Gives wholeDigits fun t => ∀ c ∈ t, isDigit c = true := by
  refine (gives_takeWhile1 _).bind fun digits hdigits => ?_
  split
  · exact gives_failure
  · exact gives_pure hdigits

/-- Only these characters are in a numeral. -/
theorem gives_numeral : Gives numeral fun t => ∀ c ∈ t, isNumeralChar c = true := by
  refine (gives_any _).bind fun sign _ => gives_wholeDigits.bind fun whole hwhole =>
    ((gives_takeWhile1 _).seqRight _).option.bind fun fraction hfraction =>
    gives_powerText.option.bind fun power hpower => gives_pure ?_
  simp only [List.forall_mem_append]
  refine ⟨⟨⟨?_, isNumeralChar_of_isDigit hwhole⟩, ?_⟩, ?_⟩
  · split
    · exact List.forall_mem_singleton.mpr rfl
    · exact List.forall_mem_nil _
  · cases fraction with
    | none => simp
    | some t => exact List.forall_mem_cons.mpr ⟨rfl, isNumeralChar_of_isDigit (hfraction t rfl)⟩
  · cases power with
    | none => simp
    | some t => exact hpower t rfl

/-! ### Printed numbers -/

/-- The text is read as a numeral wherever it ends. -/
def IsNumeral (t : List Char) : Prop :=
  ∀ rest, Stops continuesToken rest → numeral (t ++ rest) = some (t, rest)

/-- A numeral begins with a minus sign or a digit. -/
theorem numeral_stops {c : Char} {s : List Char} (h : c ≠ '-') (hd : c.isDigit = false) :
    numeral (c :: s) = none := by
  have hsign : option (char '-') (c :: s) = some (none, c :: s) := option_none (by simp [h])
  have hwhole : wholeDigits (c :: s) = none := by
    rw [wholeDigits, bind_apply, takeWhile1_stops (by simpa [isDigit_eq] using hd)]
    rfl
  rw [numeral, bind_run hsign, bind_apply, hwhole]
  rfl

theorem IsNumeral.head {t : List Char} (h : IsNumeral t) :
    ∃ c cs, t = c :: cs ∧ (c = '-' ∨ c.isDigit = true) := by
  have hread := h [] (stops_nil _)
  cases t with
  | nil => cases hread
  | cons c cs =>
    refine ⟨c, cs, rfl, ?_⟩
    by_contra hc
    simp only [not_or, Bool.not_eq_true] at hc
    rw [List.append_nil, numeral_stops hc.1 hc.2] at hread
    cases hread

theorem IsNumeral.forall_isNumeralChar {t : List Char} (h : IsNumeral t) :
    ∀ c ∈ t, isNumeralChar c = true :=
  gives_numeral (t ++ []) t [] (h [] (stops_nil _))

theorem isNumeral_parts (negative : Bool) (p : Parts) :
    IsNumeral (signText negative ++ p.text) := by
  intro rest hrest
  rw [List.append_assoc]
  exact numeral_run negative p hrest

theorem toList_repr (n : Int) :
    n.repr.toList = signText (decide (n < 0)) ++ (Parts.ofNat n.natAbs).text := by
  rw [Parts.text_ofNat, Int.repr_eq_if]
  split
  · next hn =>
    rw [decide_eq_false (by omega), show n.natAbs = n.toNat by omega]
    simp [signText]
  · next hn =>
    rw [decide_eq_true (by omega), show n.natAbs = (-n).toNat by omega]
    simp [signText]

/-- The text of an integer is a numeral. -/
theorem isNumeral_repr (n : Int) : IsNumeral n.repr.toList := by
  rw [toList_repr]
  exact isNumeral_parts _ (.ofNat n.natAbs)

/-! ### Digits laid out -/

theorem ofDigits_eq (t : List Char) : ofDigits t = Nat.ofDigitChars 10 t 0 := by
  simp only [ofDigits, Nat.ofDigitChars, Nat.mul_comm]

theorem ofDigits_toDigits (n : Nat) : ofDigits (Nat.toDigits 10 n) = n := by
  rw [ofDigits_eq, Nat.ofDigitChars_ten_toDigits]

/-- What stands in places, with a point, is the decimal of its parts. -/
theorem Parts.toRat_decimal_of_point {p : Parts} {t : List Char} (hfraction : p.fraction = some t)
    (hexponent : p.exponent = none) : p.decimal.toRat = placesValue p.text := by
  have hdigits := (p.isFraction t hfraction).2
  have htext : p.text = p.whole ++ '.' :: t := by
    rw [text, hfraction, hexponent]
    simp [fractionText, exponentText]
  rw [htext, placesValue_point p.isWhole.digits hdigits, Decimal.toRat, decimal, hfraction,
    hexponent, ofDigits_eq]
  simp

/-- Digits with the point put among them, before them or behind them make a numeral. -/
theorem exists_parts_positional {digits : List Char} (hne : digits ≠ []) (hd : AllDigits digits)
    (hhead : digits.head? ≠ some '0') (e : Int) : ∃ p : Parts, p.fraction.isSome = true
      ∧ p.exponent = none ∧ p.text = numberLayout.positional digits e := by
  unfold NumberLayout.positional
  dsimp only
  split
  · -- a zero stands before the point
    refine ⟨⟨['0'], some (List.replicate (-e - 1).toNat '0' ++ digits), none, .toDigits 0, ?_⟩,
      rfl, rfl, ?_⟩
    · rintro _ ⟨⟩
      exact ⟨by simp [hne], AllDigits.append (allDigits_replicate _) hd⟩
    · simp [Parts.text, fractionText, exponentText]
  · split
    · -- all the digits stand before the point
      refine ⟨⟨digits ++ List.replicate (e.toNat + 1 - digits.length) '0', some ['0'], none,
        .of_head (by simp [hne]) (AllDigits.append hd (allDigits_replicate _)) ?_, ?_⟩, rfl, rfl, rfl⟩
      · rwa [List.head?_append_of_ne_nil _ hne]
      · rintro _ ⟨⟩
        exact ⟨by simp, allDigits_replicate 1⟩
    · next hlen =>
      refine ⟨⟨digits.take (e.toNat + 1), some (digits.drop (e.toNat + 1)), none,
        .of_head ?_ ?_ ?_, ?_⟩, rfl, rfl, ?_⟩
      · simpa using hne
      · exact fun c hc => hd c (List.mem_of_mem_take hc)
      · simpa [List.head?_take] using hhead
      · rintro _ ⟨⟩
        exact ⟨by simp; omega, fun c hc => hd c (List.mem_of_mem_drop hc)⟩
      · simp [Parts.text, fractionText, exponentText]

/-- Digits with an exponent make a numeral. -/
theorem exists_parts_scientific {digits : List Char} (hne : digits ≠ []) (hd : AllDigits digits)
    (hhead : digits.head? ≠ some '0') (e : Int) : ∃ p : Parts, p.exponent = some e
      ∧ p.decimal = ⟨ofDigits digits, e + 1 - digits.length⟩
      ∧ p.text = NumberLayout.scientific digits e := by
  obtain ⟨first, more, rfl⟩ := List.exists_cons_of_ne_nil hne
  have hfirst : IsWhole [first] := .of_head (by simp) (fun c hc => hd c (by simp_all)) hhead
  cases more with
  | nil =>
    refine ⟨⟨[first], none, some e, hfirst, by simp [IsFraction]⟩, rfl, ?_, rfl⟩
    simp [Parts.decimal]
  | cons second more =>
    refine ⟨⟨[first], some (second :: more), some e, hfirst, ?_⟩, rfl, ?_, ?_⟩
    · rintro _ ⟨⟩
      exact ⟨by simp, fun c hc => hd c (List.mem_cons_of_mem _ hc)⟩
    · simp [Parts.decimal]
    · simp [Parts.text, NumberLayout.scientific, fractionText, exponentText, powerSign]

/-- The text of a number above zero has the parts of a numeral, which stand for the digits that it was
printed from, and it is not the text of an integer. -/
theorem exists_parts_magnitude {q : Rat} (hq : 0 < q) : ∃ p : Parts, p.isInteger = false
    ∧ p.decimal.toRat = (Decimal.shortest numberLayout.tie q).toRat
    ∧ p.text = numberLayout.magnitude q := by
  have hhead := head?_toDigits_ne (Decimal.shortest_significand_ne_zero numberLayout.tie hq)
  unfold NumberLayout.magnitude
  dsimp only
  generalize Decimal.shortest numberLayout.tie q = d at hhead
  have hdigits := allDigits_toDigits d.significand
  split
  · obtain ⟨p, hfraction, hexponent, htext⟩ :=
      exists_parts_positional Nat.toDigits_ne_nil hdigits hhead d.leadingExponent
    obtain ⟨t, ht⟩ := Option.isSome_iff_exists.mp hfraction
    refine ⟨p, by rw [Parts.isInteger, ht]; rfl, ?_, htext⟩
    rw [Parts.toRat_decimal_of_point ht hexponent, htext]
    exact NumberLayout.placesValue_digits (.inr rfl) d
  · obtain ⟨p, hexponent, hdecimal, htext⟩ :=
      exists_parts_scientific Nat.toDigits_ne_nil hdigits hhead d.leadingExponent
    refine ⟨p, by rw [Parts.isInteger, hexponent, Option.isNone_some, Bool.and_false], ?_, htext⟩
    have hd : p.decimal = d := by
      rw [hdecimal, ofDigits_toDigits]
      congr 1
      rw [Decimal.leadingExponent, Decimal.digits]
      omega
    rw [hd]

/-- The text of a finite number other than zero has a sign and the parts of a numeral. -/
theorem exists_parts_finite {q : Rat} (h : Representable q) (hq : q ≠ 0) : ∃ p : Parts,
    p.isInteger = false ∧ p.decimal.toRat = (Decimal.shortest numberLayout.tie |q|).toRat
      ∧ numberLayout.text (.finite q h) = signText (decide (q < 0)) ++ p.text := by
  obtain ⟨p, hinteger, hvalue, htext⟩ := exists_parts_magnitude (abs_pos.mpr hq)
  refine ⟨p, hinteger, hvalue, ?_⟩
  rw [htext, NumberLayout.text, if_neg hq]
  rcases lt_or_ge q 0 with hneg | hpos
  · rw [if_pos hneg, decide_eq_true hneg, abs_of_neg hneg]
    rfl
  · rw [if_neg hpos.not_gt, decide_eq_false hpos.not_gt, abs_of_nonneg hpos]
    rfl

/-- Zero with a point and a zero behind it. -/
def Parts.zero : Parts where
  whole := ['0']
  fraction := some ['0']
  exponent := none
  isWhole := .toDigits 0
  isFraction := by
    rintro _ ⟨⟩
    exact ⟨by simp, allDigits_replicate 1⟩

/-- **The text of a finite number is a numeral.** -/
theorem isNumeral_text {x : Binary64} (hx : x.isFinite) : IsNumeral (numberLayout.text x) := by
  cases x with
  | finite q h =>
    by_cases hq : q = 0
    · subst hq
      exact isNumeral_parts false .zero
    · obtain ⟨p, -, -, htext⟩ := exists_parts_finite h hq
      rw [htext]
      exact isNumeral_parts _ p
  | negativeZero => exact isNumeral_parts true .zero
  | infinite _ => simp [Binary64.isFinite, Binary64.toRat?] at hx
  | nan => simp [Binary64.isFinite, Binary64.toRat?] at hx

end Handoff.Json
