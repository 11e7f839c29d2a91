import Handoff.Proofs.Text.Search
import Handoff.Scene.Color
import Handoff.Token.Name
import Mathlib.Data.List.Basic

/-!
# When tokens have the same name

The name of a color is what its layer gives it, a dash, and four digits. The
digits are those of red and green (`colorName_hex`), so that two colors have the
same name exactly when their layers give them the same and their hex forms begin
with the same four digits (`colorName_eq_iff`). The name of a text style has the
classes of its size and its weight and no more (`typographyName_eq_iff`), and that
of a shadow the slug of its layer and whether it lies inside (`shadowName_eq_iff`).
-/

namespace Handoff

/-! ### Digits -/

namespace Text

theorem upperHexDigit_inj : ∀ m < 16, ∀ n < 16, upperHexDigit m = upperHexDigit n → m = n := by
  decide

theorem lowerHexDigit_inj : ∀ m < 16, ∀ n < 16, lowerHexDigit m = lowerHexDigit n → m = n := by
  decide

theorem upperHexDigit_ne : ∀ n < 16, upperHexDigit n ≠ '#' ∧ upperHexDigit n ≠ 'Σ' := by
  decide

theorem lowercase_upperHexDigit : ∀ n < 16, lowercase (upperHexDigit n) = [lowerHexDigit n] := by
  decide

/-- The two lowercase digits of an octet. -/
def lowerHexOctet (b : UInt8) : List Char :=
  [lowerHexDigit (b.toNat / 16), lowerHexDigit (b.toNat % 16)]

theorem octet_lt (b : UInt8) : b.toNat / 16 < 16 ∧ b.toNat % 16 < 16 := by
  have := b.toNat_lt
  omega

/-- Octets with the same digits are the same. -/
theorem octet_eq_of_digits {digit : Nat → Char}
    (hinj : ∀ m < 16, ∀ n < 16, digit m = digit n → m = n) {a b : UInt8}
    (hhigh : digit (a.toNat / 16) = digit (b.toNat / 16))
    (hlow : digit (a.toNat % 16) = digit (b.toNat % 16)) : a = b := by
  obtain ⟨ha, ha'⟩ := octet_lt a
  obtain ⟨hb, hb'⟩ := octet_lt b
  have hdiv := hinj _ ha _ hb hhigh
  have hmod := hinj _ ha' _ hb' hlow
  apply UInt8.toNat_inj.mp
  omega

/-- Without a capital sigma, a text is folded character by character. -/
theorem foldFrom_eq_flatMap (before s : List Char) (h : 'Σ' ∉ s) :
    foldFrom before s = s.flatMap lowercase := by
  induction s generalizing before with
  | nil => rfl
  | cons c rest ih =>
    rw [List.mem_cons, not_or] at h
    obtain ⟨hc, hrest⟩ := h
    rw [foldFrom, if_neg (Ne.symm hc), ih _ hrest, List.flatMap_cons]

theorem sigma_notMem_upperHexOctet (b : UInt8) : 'Σ' ∉ upperHexOctet b := by
  obtain ⟨hhigh, hlow⟩ := octet_lt b
  simp [upperHexOctet, (upperHexDigit_ne _ hhigh).2.symm, (upperHexDigit_ne _ hlow).2.symm]

theorem flatMap_lowercase_upperHexOctet (b : UInt8) :
    (upperHexOctet b).flatMap lowercase = lowerHexOctet b := by
  obtain ⟨hhigh, hlow⟩ := octet_lt b
  simp [upperHexOctet, lowerHexOctet, lowercase_upperHexDigit _ hhigh, lowercase_upperHexDigit _ hlow]

theorem fold_upperHexOctets (a b : UInt8) :
    fold (upperHexOctet a ++ upperHexOctet b) = lowerHexOctet a ++ lowerHexOctet b := by
  have hsigma : 'Σ' ∉ upperHexOctet a ++ upperHexOctet b := by
    simp [sigma_notMem_upperHexOctet]
  rw [fold, foldFrom_eq_flatMap _ _ hsigma, List.flatMap_append, flatMap_lowercase_upperHexOctet,
    flatMap_lowercase_upperHexOctet]

end Text

/-! ### Names -/

namespace Token

open Text

/-- What a layer gives to the names of its colors: its slug, or a word if that is empty. -/
def colorBase (layer : String) : String := if slug layer = "" then "color" else slug layer

/-- The name of a color ends in the digits of red and green. -/
theorem colorName_hex (layer : String) (c : Rgb8) : colorName layer c.hex
    = colorBase layer ++ "-" ++ .ofList (lowerHexOctet c.r ++ lowerHexOctet c.g) := by
  have hnumber : upperHexDigit (c.r.toNat / 16) ≠ '#' := (upperHexDigit_ne _ (octet_lt c.r).1).1
  have hdigits : (c.hex.toList.dropWhile (· = '#')).take 4
      = upperHexOctet c.r ++ upperHexOctet c.g := by
    simp [Rgb8.hex, upperHexOctet, hnumber]
  rw [colorName, hdigits, fold_upperHexOctets]
  rfl

/-- The first four digits of a hex form are those of red and green. -/
theorem take_hex_eq_iff (c d : Rgb8) :
    c.hex.toList.take 5 = d.hex.toList.take 5 ↔ c.r = d.r ∧ c.g = d.g := by
  have htake : ∀ e : Rgb8, e.hex.toList.take 5 = '#' :: (upperHexOctet e.r ++ upperHexOctet e.g) :=
    fun e => by simp [Rgb8.hex, upperHexOctet]
  rw [htake, htake]
  constructor
  · intro h
    obtain ⟨hr, hr', hg, hg'⟩ : _ ∧ _ ∧ _ ∧ _ := by simpa [upperHexOctet] using h
    exact ⟨octet_eq_of_digits upperHexDigit_inj hr hr', octet_eq_of_digits upperHexDigit_inj hg hg'⟩
  · rintro ⟨hr, hg⟩
    rw [hr, hg]

/-- **Colors have the same name** when their layers give them the same and they begin the same. -/
theorem colorName_eq_iff (layer other : String) (c d : Rgb8) :
    colorName layer c.hex = colorName other d.hex
      ↔ colorBase layer = colorBase other ∧ c.hex.toList.take 5 = d.hex.toList.take 5 := by
  rw [take_hex_eq_iff, colorName_hex, colorName_hex]
  constructor
  · intro h
    have hlist := congrArg String.toList h
    simp only [String.toList_append, String.toList_ofList] at hlist
    obtain ⟨hbase, hdigits⟩ := List.append_inj' hlist (by simp [lowerHexOctet])
    obtain ⟨hr, hr', hg, hg'⟩ : _ ∧ _ ∧ _ ∧ _ := by simpa [lowerHexOctet] using hdigits
    refine ⟨String.toList_inj.mp (List.append_cancel_right hbase), ?_, ?_⟩
    · exact octet_eq_of_digits lowerHexDigit_inj hr hr'
    · exact octet_eq_of_digits lowerHexDigit_inj hg hg'
  · rintro ⟨hbase, hr, hg⟩
    rw [hbase, hr, hg]

/-- The name of a color ends in a lowercase digit. -/
theorem getLast?_colorName (layer : String) (c : Rgb8) :
    ∃ n < 16, (colorName layer c.hex).toList.getLast? = some (lowerHexDigit n) := by
  refine ⟨c.g.toNat % 16, (octet_lt c.g).2, ?_⟩
  rw [colorName_hex]
  simp [lowerHexOctet]

/-- No class of a size has a dash, which divides it from that of the weight. -/
theorem dash_notMem_sizeClass (size : Binary64) : '-' ∉ (sizeClass size).toList := by
  unfold sizeClass
  repeat' split
  all_goals decide

/-- **Text styles have the same name** when their sizes and their weights have the same class. -/
theorem typographyName_eq_iff (size size' : Binary64) (weight weight' : UInt16) :
    typographyName size weight = typographyName size' weight'
      ↔ sizeClass size = sizeClass size' ∧ weightClass weight = weightClass weight' := by
  have htext : ∀ (s : Binary64) (w : UInt16), (typographyName s w).toList
      = "text-".toList ++ ((sizeClass s).toList ++ '-' :: (weightClass w).toList) := by
    intro s w
    simp [typographyName]
  rw [← String.toList_inj, htext, htext, List.append_cancel_left_eq,
    append_cons_eq_iff (dash_notMem_sizeClass size) (dash_notMem_sizeClass size'),
    String.toList_inj, String.toList_inj]

/-- What a layer gives to the name of its shadow: its slug, with dashes for slashes. -/
def shadowBase (layer : String) : List Char := replace '/' '-' (slug layer).toList

theorem toList_shadowName (layer : String) (inset : Bool) : (shadowName layer inset).toList
    = (if inset then "inner-shadow" else "shadow").toList
      ++ if shadowBase layer = [] then [] else '-' :: shadowBase layer := by
  simp only [shadowName, List.isEmpty_iff]
  rw [← shadowBase]
  split <;> simp

/-- **Shadows have the same name** when their layers give them the same and both lie inside or not. -/
theorem shadowName_eq_iff (layer layer' : String) (inset inset' : Bool) :
    shadowName layer inset = shadowName layer' inset'
      ↔ inset = inset' ∧ shadowBase layer = shadowBase layer' := by
  have hfirst : ∀ (b : Bool) (t : List Char),
      ((if b then "inner-shadow" else "shadow").toList ++ t).head? = some (if b then 'i' else 's') := by
    intro b t
    cases b <;> rfl
  have hinj : ∀ b b' : Bool, (if b then 'i' else 's') = (if b' then 'i' else 's') → b = b' := by
    decide
  rw [← String.toList_inj, toList_shadowName, toList_shadowName]
  constructor
  · intro h
    have hhead := congrArg List.head? h
    rw [hfirst, hfirst] at hhead
    obtain rfl := hinj inset inset' (Option.some.inj hhead)
    rw [List.append_cancel_left_eq] at h
    refine ⟨rfl, ?_⟩
    split at h <;> split at h
    · next hnil hnil' => rw [hnil, hnil']
    · cases h
    · cases h
    · exact (List.cons.inj h).2
  · rintro ⟨rfl, h⟩
    rw [h]

end Token

end Handoff
