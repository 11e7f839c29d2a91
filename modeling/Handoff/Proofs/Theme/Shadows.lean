import Handoff.Proofs.Text.Ascii
import Handoff.Proofs.Text.Blank
import Handoff.Proofs.Theme.Names

/-!
# The colors of shadows

A shadow keeps its color as a hex form, from which the theme takes the octets
again. What is written is read back (`Rgb8.ofHex?_hex`), so that a theme shows
every shadow in its own color. What is read is not always such a form: the two
digits of an octet are read as a number, and a number may have a sign
(`IsOctet.signed`). A text is a hex form of the color it is read as exactly when
it has no sign in it (`Rgb8.isHexForm_iff`).
-/

namespace Handoff

namespace Text

/-! ### Digits -/

/-- The character is a hexadecimal digit in either case. -/
def IsHexDigit (c : Char) : Prop := c ∈ "0123456789ABCDEFabcdef".toList

instance : DecidablePred IsHexDigit := fun _ => inferInstanceAs (Decidable (_ ∈ _))

theorem plus_not_isHexDigit : ¬ IsHexDigit '+' := by decide

/-- Every character that has a value as a digit is among the first 128 codes. -/
theorem toNat_lt_of_hexDigit? {c : Char} {n : Nat} (h : hexDigit? c = some n) : c.toNat < 128 := by
  have hle : c ≤ 'f' := by
    unfold hexDigit? at h
    split_ifs at h with hdigit hlower hupper
    · exact Char.le_trans hdigit.2 (by decide)
    · exact hlower.2
    · exact Char.le_trans hupper.2 (by decide)
  exact Nat.lt_of_le_of_lt (show c.toNat ≤ 'f'.toNat from hle) (by decide)

/-- A character has the value of the digit that it is in uppercase. -/
theorem hexDigit?_eq_some_iff {c : Char} {n : Nat} :
    hexDigit? c = some n ↔ IsHexDigit c ∧ n < 16 ∧ c.toUpper = upperHexDigit n := by
  constructor
  · intro h
    have hcodes : ∀ k < 128, ∀ n ∈ hexDigit? (Char.ofNat k),
        IsHexDigit (Char.ofNat k) ∧ n < 16 ∧ (Char.ofNat k).toUpper = upperHexDigit n := by
      decide +kernel
    exact holds_of_codes (P := fun c => ∀ n ∈ hexDigit? c, IsHexDigit c ∧ n < 16
      ∧ c.toUpper = upperHexDigit n) hcodes (toNat_lt_of_hexDigit? h) n h
  · rintro ⟨hdigit, hn, hupper⟩
    have hvalue : ("0123456789ABCDEFabcdef".toList.all fun d =>
        (hexDigit? d).any fun m => m < 16 && d.toUpper = upperHexDigit m) = true := by
      decide +kernel
    obtain ⟨m, hread, hm⟩ := (Option.any_eq_true _ _).mp (List.all_eq_true.mp hvalue c hdigit)
    simp only [Bool.and_eq_true, decide_eq_true_eq] at hm
    rw [hread, upperHexDigit_inj m hm.1 n hn (hm.2.symm.trans hupper)]

/-- The uppercase digits are digits, and the same in uppercase. -/
theorem isHexDigit_upperHexDigit : ∀ n < 16, IsHexDigit (upperHexDigit n)
    ∧ (upperHexDigit n).toUpper = upperHexDigit n ∧ isBlank (upperHexDigit n) = false := by
  decide +kernel

end Text

/-! ### Octets -/

open Text

/-- What an octet is read from. -/
inductive IsOctet (b : UInt8) : List Char → Prop where
  /-- Its two digits, in either case. -/
  | digits {high low : Char} (hhigh : IsHexDigit high) (hlow : IsHexDigit low)
      (h : [high.toUpper, low.toUpper] = upperHexOctet b) : IsOctet b [high, low]
  /-- A sign in the place of a zero, and its last digit. -/
  | signed {low : Char} (hlow : IsHexDigit low) (h : ['0', low.toUpper] = upperHexOctet b) :
      IsOctet b ['+', low]

theorem octet_eq_iff {m n : Nat} (hm : m < 16) (hn : n < 16) (b : UInt8) :
    UInt8.ofNat (m * 16 + n) = b ↔ [upperHexDigit m, upperHexDigit n] = upperHexOctet b := by
  obtain ⟨hhigh, hlow⟩ := octet_lt b
  rw [upperHexOctet, List.cons.injEq, List.cons.injEq, ← UInt8.toNat_inj, UInt8.toNat_ofNat']
  constructor
  · intro h
    have hdiv : m = b.toNat / 16 := by omega
    have hmod : n = b.toNat % 16 := by omega
    rw [← hdiv, ← hmod]
    exact ⟨rfl, rfl, rfl⟩
  · rintro ⟨h, h', -⟩
    have hdiv := upperHexDigit_inj m hm _ hhigh h
    have hmod := upperHexDigit_inj n hn _ hlow h'
    omega

/-- Two digits are read as the octet that has them in uppercase. -/
theorem hexNumber?_pair_eq_some_iff {high low : Char} {b : UInt8} :
    (hexNumber? [high, low]).map UInt8.ofNat = some b ↔ IsHexDigit high ∧ IsHexDigit low
      ∧ [high.toUpper, low.toUpper] = upperHexOctet b := by
  have hpair : hexNumber? [high, low] = (hexDigit? high).bind fun m =>
      (hexDigit? low).map fun n => m * 16 + n := by
    simp [hexNumber?, Option.map_eq_bind]
  simp only [hpair, Option.map_eq_some_iff, Option.bind_eq_some_iff, hexDigit?_eq_some_iff]
  constructor
  · rintro ⟨_, ⟨m, ⟨hhigh, hm, hupper⟩, n, ⟨hlow, hn, hupper'⟩, rfl⟩, hoctet⟩
    rw [hupper, hupper']
    exact ⟨hhigh, hlow, (octet_eq_iff hm hn b).mp hoctet⟩
  · rintro ⟨hhigh, hlow, hupper⟩
    obtain ⟨hm, hn⟩ := octet_lt b
    obtain ⟨hupper, hupper'⟩ : _ ∧ _ := by simpa [upperHexOctet] using hupper
    exact ⟨_, ⟨_, ⟨hhigh, hm, hupper⟩, _, ⟨hlow, hn, hupper'⟩, rfl⟩, (octet_eq_iff hm hn b).mpr rfl⟩

/-- What stands alone is read as if a zero stood before it. -/
theorem hexNumber?_single (low : Char) : hexNumber? [low] = hexNumber? ['0', low] := by
  have hzero : hexDigit? '0' = some 0 := by decide
  simp [hexNumber?, hzero]

/-- Which characters are read as an octet. -/
theorem hexOctet?_eq_some_iff {high low : Char} {b : UInt8} :
    hexOctet? high low = some b ↔ IsOctet b [high, low] := by
  rw [hexOctet?]
  constructor
  · split
    · next hsign =>
      rw [hsign, hexNumber?_single, hexNumber?_pair_eq_some_iff]
      exact fun ⟨_, hlow, h⟩ => .signed hlow h
    · rw [hexNumber?_pair_eq_some_iff]
      exact fun ⟨hhigh, hlow, h⟩ => .digits hhigh hlow h
  · rintro (⟨hhigh, hlow, h⟩ | ⟨hlow, h⟩)
    · have hne : high ≠ '+' := fun hsign => plus_not_isHexDigit (hsign ▸ hhigh)
      rw [if_neg hne, hexNumber?_pair_eq_some_iff]
      exact ⟨hhigh, hlow, h⟩
    · rw [if_pos rfl, hexNumber?_single, hexNumber?_pair_eq_some_iff]
      exact ⟨by decide, hlow, h⟩

theorem isOctet_iff {b : UInt8} {pair : List Char} :
    IsOctet b pair ↔ ∃ high low, pair = [high, low] ∧ hexOctet? high low = some b := by
  constructor
  · rintro (⟨hhigh, hlow, h⟩ | ⟨hlow, h⟩)
    · exact ⟨_, _, rfl, hexOctet?_eq_some_iff.mpr (.digits hhigh hlow h)⟩
    · exact ⟨_, _, rfl, hexOctet?_eq_some_iff.mpr (.signed hlow h)⟩
  · rintro ⟨high, low, rfl, h⟩
    exact hexOctet?_eq_some_iff.mp h

theorem isOctet_digits_iff {b : UInt8} {pair : List Char} : IsOctet b pair ∧ '+' ∉ pair
    ↔ (∀ d ∈ pair, IsHexDigit d) ∧ pair.map Char.toUpper = upperHexOctet b := by
  constructor
  · rintro ⟨⟨hhigh, hlow, h⟩ | ⟨hlow, h⟩, hsign⟩
    · exact ⟨by simp [hhigh, hlow], h⟩
    · exact absurd List.mem_cons_self hsign
  · rintro ⟨hdigits, h⟩
    have hlength := congrArg List.length h
    rw [List.length_map] at hlength
    obtain ⟨high, low, rfl⟩ := List.length_eq_two.mp hlength
    exact ⟨.digits (hdigits high (by simp)) (hdigits low (by simp)) h,
      fun hsign => plus_not_isHexDigit (hdigits _ hsign)⟩

/-! ### Hex forms -/

namespace Rgb8

/-- What is left of a text without the blanks around it and the number signs before it. -/
def digitsOf (s : String) : List Char := (trim s.toList).dropWhile (· = '#')

/-- The text is a hex form of the color: six digits that are in uppercase those of the color. -/
structure IsHexForm (c : Rgb8) (s : String) : Prop where
  /-- There are six characters. -/
  length : (digitsOf s).length = 6
  /-- All of them are digits. -/
  digits : ∀ d ∈ digitsOf s, IsHexDigit d
  /-- In uppercase they are the written form of the color. -/
  upper : String.ofList ('#' :: (digitsOf s).map Char.toUpper) = c.hex

theorem ofList_eq_hex_iff {c : Rgb8} {digits : List Char} : String.ofList ('#' :: digits) = c.hex
    ↔ digits = upperHexOctet c.r ++ upperHexOctet c.g ++ upperHexOctet c.b := by
  rw [hex, ← String.toList_inj, String.toList_ofList, String.toList_ofList, List.cons_append,
    List.cons_append, List.cons.injEq, and_iff_right rfl]

/-- A text is read as the color whose octets its three pairs of characters are read as. -/
theorem ofHex?_eq_some_iff {s : String} {c : Rgb8} : ofHex? s = some c
    ↔ ∃ r g b, digitsOf s = r ++ g ++ b ∧ IsOctet c.r r ∧ IsOctet c.g g ∧ IsOctet c.b b := by
  rw [ofHex?, ← digitsOf]
  constructor
  · intro h
    split at h
    · next r₁ r₂ g₁ g₂ b₁ b₂ hdigits =>
      simp only [Option.bind_eq_bind, Option.bind_eq_some_iff, Option.pure_def,
        Option.some.injEq] at h
      obtain ⟨r, hr, g, hg, b, hb, rfl⟩ := h
      exact ⟨[r₁, r₂], [g₁, g₂], [b₁, b₂], hdigits, hexOctet?_eq_some_iff.mp hr,
        hexOctet?_eq_some_iff.mp hg, hexOctet?_eq_some_iff.mp hb⟩
    · cases h
  · rintro ⟨r, g, b, hdigits, hr, hg, hb⟩
    obtain ⟨r₁, r₂, rfl, hred⟩ := isOctet_iff.mp hr
    obtain ⟨g₁, g₂, rfl, hgreen⟩ := isOctet_iff.mp hg
    obtain ⟨b₁, b₂, rfl, hblue⟩ := isOctet_iff.mp hb
    rw [hdigits]
    simp [hred, hgreen, hblue]

/-- A text is a hex form of the color that it is read as, unless it has a sign in it. -/
theorem isHexForm_iff {c : Rgb8} {s : String} :
    IsHexForm c s ↔ ofHex? s = some c ∧ '+' ∉ digitsOf s := by
  rw [ofHex?_eq_some_iff]
  constructor
  · rintro ⟨-, hdigits, hupper⟩
    -- The digits are taken apart as their uppercase form is.
    obtain ⟨rg, b, hb, hrg, hmap⟩ := List.map_eq_append_iff.mp (ofList_eq_hex_iff.mp hupper)
    obtain ⟨r, g, rfl, hr, hg⟩ := List.map_eq_append_iff.mp hrg
    simp only [hb, List.forall_mem_append] at hdigits
    obtain ⟨⟨hdr, hdg⟩, hdb⟩ := hdigits
    obtain ⟨hr, hsr⟩ := isOctet_digits_iff.mpr ⟨hdr, hr⟩
    obtain ⟨hg, hsg⟩ := isOctet_digits_iff.mpr ⟨hdg, hg⟩
    obtain ⟨hb', hsb⟩ := isOctet_digits_iff.mpr ⟨hdb, hmap⟩
    exact ⟨⟨r, g, b, hb, hr, hg, hb'⟩, by simp [hb, hsr, hsg, hsb]⟩
  · rintro ⟨⟨r, g, b, hdigits, hr, hg, hb⟩, hsign⟩
    simp only [hdigits, List.mem_append, not_or] at hsign
    obtain ⟨hdr, hr⟩ := isOctet_digits_iff.mp ⟨hr, hsign.1.1⟩
    obtain ⟨hdg, hg⟩ := isOctet_digits_iff.mp ⟨hg, hsign.1.2⟩
    obtain ⟨hdb, hb⟩ := isOctet_digits_iff.mp ⟨hb, hsign.2⟩
    have hmap : (digitsOf s).map Char.toUpper
        = upperHexOctet c.r ++ upperHexOctet c.g ++ upperHexOctet c.b := by
      rw [hdigits, List.map_append, List.map_append, hr, hg, hb]
    refine ⟨?_, ?_, ofList_eq_hex_iff.mpr hmap⟩
    · have hlength := congrArg List.length hmap
      rwa [List.length_map] at hlength
    · rw [hdigits]
      exact List.forall_mem_append.mpr ⟨List.forall_mem_append.mpr ⟨hdr, hdg⟩, hdb⟩

/-! ### Written colors -/

/-- What holds of the sixteen uppercase digits holds of those of a color. -/
theorem forall_mem_digits {P : Char → Prop} (h : ∀ n < 16, P (upperHexDigit n)) (c : Rgb8) :
    ∀ d ∈ upperHexOctet c.r ++ upperHexOctet c.g ++ upperHexOctet c.b, P d := by
  have hoctet : ∀ b : UInt8, ∀ d ∈ upperHexOctet b, P d := by
    intro b
    obtain ⟨hhigh, hlow⟩ := octet_lt b
    simp [upperHexOctet, h _ hhigh, h _ hlow]
  simp only [List.forall_mem_append]
  exact ⟨⟨hoctet c.r, hoctet c.g⟩, hoctet c.b⟩

theorem toList_hex (c : Rgb8) : c.hex.toList
    = '#' :: (upperHexOctet c.r ++ upperHexOctet c.g ++ upperHexOctet c.b) := by
  rw [hex, String.toList_ofList, List.cons_append, List.cons_append]

theorem digitsOf_hex (c : Rgb8) :
    digitsOf c.hex = upperHexOctet c.r ++ upperHexOctet c.g ++ upperHexOctet c.b := by
  have hblank : ∀ d ∈ c.hex.toList, isBlank d = false := by
    rw [toList_hex]
    exact List.forall_mem_cons.mpr
      ⟨by decide, c.forall_mem_digits fun n hn => (isHexDigit_upperHexDigit n hn).2.2⟩
  have hnumber : ∀ d ∈ (upperHexOctet c.r ++ upperHexOctet c.g ++ upperHexOctet c.b).head?,
      d ≠ '#' := by
    intro d hd
    exact c.forall_mem_digits (P := (· ≠ '#')) (fun n hn => (upperHexDigit_ne n hn).1) d
      (List.mem_of_mem_head? hd)
  rw [digitsOf, trim_eq_self (noBlankEnds_of_forall hblank), toList_hex,
    List.dropWhile_cons_of_pos (by decide)]
  simpa [upperHexOctet] using hnumber

/-- The written form of a color is a hex form of it. -/
theorem isHexForm_hex (c : Rgb8) : IsHexForm c c.hex := by
  have hdigits := c.digitsOf_hex
  have hupper : (digitsOf c.hex).map Char.toUpper = digitsOf c.hex := by
    have hself := c.forall_mem_digits (P := fun d => d.toUpper = d)
      fun n hn => (isHexDigit_upperHexDigit n hn).2.1
    rw [hdigits, List.map_congr_left hself, List.map_id']
  refine ⟨?_, ?_, ?_⟩
  · rw [hdigits]
    rfl
  · rw [hdigits]
    exact c.forall_mem_digits fun n hn => (isHexDigit_upperHexDigit n hn).1
  · rw [hupper, ofList_eq_hex_iff, hdigits]

/-- **The written form of a color is read back.** -/
theorem ofHex?_hex (c : Rgb8) : ofHex? c.hex = some c := (isHexForm_iff.mp c.isHexForm_hex).1

end Rgb8

/-! ### Shadows in a theme -/

/-- The color with its opacity, as a theme says it. -/
def Color.rgba (c : Color) : String :=
  "rgba(" ++ c.rgb8.r.toNat.repr ++ ", " ++ c.rgb8.g.toNat.repr ++ ", " ++ c.rgb8.b.toNat.repr
    ++ ", " ++ c.a.quantity ++ ")"

namespace FirstShadow

/-- The color of a shadow, black where there is none. -/
def color (s : FirstShadow) : Color := s.shadow.color.getD .black

/-- Where a shadow lies and how large it is, as a theme says it. -/
def placement (s : FirstShadow) : String :=
  (if s.shadow.kind = .innerShadow then "inset " else "")
    ++ s.x.quantity ++ "px " ++ s.y.quantity ++ "px " ++ s.blur.quantity ++ "px "
    ++ (s.shadow.spread.getD 0).quantity ++ "px "

/-- The token of a shadow is shown in the color of the shadow. -/
theorem boxShadow_token (s : FirstShadow) : s.token.boxShadow = s.placement ++ s.color.rgba := by
  have hcolor : Rgb8.ofHex? s.token.color = some s.color.rgb8 := s.color.rgb8.ofHex?_hex
  unfold ShadowToken.boxShadow
  rw [hcolor]
  simp only [Option.getD_some, token, placement, Color.rgba, color, decide_eq_true_eq,
    String.append_assoc]
  rfl

end FirstShadow

/--
**Hex forms are written and read alike, but for signs.** A color is written as a number sign and six
uppercase digits, which are read back as its octets, so that a theme shows every shadow in its own
color. A text is read as a color when its three pairs of characters are read as octets, and it is a
hex form of that color exactly when there is no sign in it.
-/
theorem hexForms_agree (c : Color) (s : String) (octets : Rgb8) (roots : Forest Layer)
    (kinds : TokenKinds) :
    (∃ digits, c.hex = .ofList ('#' :: digits) ∧ digits.length = 6
        ∧ ∀ d ∈ digits, d ∈ "0123456789ABCDEF".toList)
      ∧ Rgb8.ofHex? c.hex = some c.rgb8
      ∧ (∃ theme, Theme.read? (TokenSet.extract roots kinds).themeText = some theme
        ∧ theme.shadows = (TokenSet.keptShadows roots kinds).map fun s =>
          (s.token.name, s.placement ++ s.color.rgba))
      ∧ (Rgb8.ofHex? s = some octets ↔ ∃ r g b, Rgb8.digitsOf s = r ++ g ++ b
        ∧ IsOctet octets.r r ∧ IsOctet octets.g g ∧ IsOctet octets.b b)
      ∧ (Rgb8.IsHexForm octets s ↔ Rgb8.ofHex? s = some octets ∧ '+' ∉ Rgb8.digitsOf s) := by
  refine ⟨⟨_, rfl, rfl, ?_⟩, c.rgb8.ofHex?_hex, ⟨_, Theme.read?_text _, ?_⟩,
    Rgb8.ofHex?_eq_some_iff, Rgb8.isHexForm_iff⟩
  · exact c.rgb8.forall_mem_digits (P := (· ∈ "0123456789ABCDEF".toList)) (by decide)
  · rw [Theme.ofTokens, TokenSet.effects_extract, List.map_map]
    exact List.map_congr_left fun s _ => congrArg (Prod.mk s.token.name) s.boxShadow_token

/-- Three digits with signs before them are read as a color, and they are no hex form of it. -/
theorem not_isHexForm_of_signs : Rgb8.ofHex? "#+1+2+3" = some ⟨1, 2, 3⟩
    ∧ ¬ Rgb8.IsHexForm ⟨1, 2, 3⟩ "#+1+2+3" := by
  have hread : Rgb8.ofHex? "#+1+2+3" = some ⟨1, 2, 3⟩ := by decide +kernel
  refine ⟨hread, fun h => (Rgb8.isHexForm_iff.mp h).2 ?_⟩
  decide +kernel

end Handoff
