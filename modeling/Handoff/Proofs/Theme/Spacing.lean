import Handoff.Proofs.Binary64.Quantity
import Handoff.Proofs.Style.Agreement
import Handoff.Proofs.Theme.Names
import Handoff.Proofs.Token.Spacing

/-!
# Spacings in a theme

The key of a spacing in a theme is a quarter of it, written as a quantity. So two
spacings have the same key when their quarters are shown as the same number, and of
those the theme keeps the greatest, which is the last (`themeText_last_of_key_counts`).
Only spacings that are close get the same key, unless they are huge: below `2 ^ 40`
pixels they differ by less than a two hundredth of a pixel.

The size next to the key is a sixteenth of the spacing. Both are rounded to
thousandths, each for itself. But the keys of the spacing classes are halves
(`cases_of_mem_spacingScale`), and a spacing that is written as such a key is so close to
twice as many pixels that its sixteenth is rounded to whole eighths
(`thousandths_sixteenth`, and for double precision `quantity_sixteenth`). So where the
theme has a key of the classes, it gives the key the size that the class has
(`themeText_keeps_spacing_classes`).
-/

namespace Handoff

open Rounding Binary64

/-! ### Spacings with one key -/

/-- Two spacings get the same key: a quarter of each is shown as the same number. -/
def SpacingToken.SameKey (s t : SpacingToken) : Prop := (s.value / 4).shown = (t.value / 4).shown

namespace TokenSet

/-- **The last spacing of each key counts**, and it is the greatest of them. -/
theorem themeText_last_of_key_counts (roots : Forest Layer) (kinds : TokenKinds) :
    ∃ theme, Theme.read? (extract roots kinds).themeText = some theme
      ∧ LastOfNameCounts (extract roots kinds).spacing SpacingToken.SameKey
        (fun t => (t.value / 4).quantity) (fun t => (t.value / 16).quantity ++ "rem") theme.spacing
      ∧ (extract roots kinds).spacing.Pairwise (fun s t => s.value < t.value)
      ∧ ∀ s ∈ (extract roots kinds).spacing, ∀ t ∈ (extract roots kinds).spacing, s.SameKey t →
        ∀ p q, s.value.toRat? = some p → t.value.toRat? = some q → p < 2 ^ 40 → q < 2 ^ 40 →
          |p - q| < 1 / 200 := by
  have hquarter : ∀ t ∈ (extract roots kinds).spacing, (t.value / 4).IsMagnitude :=
    fun t ht => (IsMagnitude.of_pos (pos_of_mem_spacing ht)).div toRat?_four (by norm_num)
  refine ⟨_, Theme.read?_text _, ?_, pairwise_lt_spacing roots kinds, ?_⟩
  · exact lastOfNameCounts_of_mem _ fun s hs t ht => quantity_eq_iff (hquarter s hs) (hquarter t ht)
  · intro s hs t ht hsame p q hp hq hp' hq'
    exact abs_sub_lt_of_shown_quarter_eq (.of_pos (pos_of_mem_spacing hs))
      (.of_pos (pos_of_mem_spacing ht)) hsame hp hq hp' hq'

/-- A layer whose paddings differ by a thousandth of a pixel. -/
def twoPaddings : Node :=
  .leaf { id := "1:1", kind := .frame, paddingTop := some 16, paddingBottom := some 16.001 }

/-- The two spacings have one key. -/
theorem not_nodup_twoPaddings :
    (extract [twoPaddings] {}).spacing.map (·.value) = [16, 16.001]
      ∧ ∃ theme, Theme.read? (extract [twoPaddings] {}).themeText = some theme
        ∧ theme.spacing.map Prod.fst = ["4", "4"] := by
  have hsorted : (keptSpacings (Forest.values [twoPaddings])).Pairwise (· ≤ ·) := by decide +kernel
  refine ⟨?_, _, Theme.read?_text _, ?_⟩
  · rw [spacing_extract_of_pairwise hsorted]
    decide +kernel
  · rw [Theme.ofTokens, spacing_extract_of_pairwise hsorted]
    decide +kernel

end TokenSet

/-! ### Quantities without rounded arithmetic -/

/-- The number rounded to thousandths, a half of one going away from zero. -/
def thousandths (q : Rat) : Rat := halfAway (q * 1000) / 1000

/--
A number that is not negative as a quantity, computed exactly. Whole numbers need no case of their
own here: rounding to thousandths leaves them as they are.
-/
def exactQuantity (q : Rat) : String :=
  match (halfAway (q * 1000)).toNat with
  | 0 => "0"
  | n =>
    let d := Decimal.trimZeros 3 ⟨n, -3⟩
    .ofList (NumberLayout.plain.positional d.digits d.leadingExponent)

/-- The text is a number written in places, and this is the number. -/
def StandsFor (t : String) (q : Rat) : Prop := IsPlaces t.toList ∧ placesValue t.toList = q

/-- The exact quantity of a number is its thousandths, written in places. -/
theorem standsFor_exactQuantity {q : Rat} (hq : 0 ≤ q) : StandsFor (exactQuantity q) (thousandths q) := by
  have hnonneg : 0 ≤ halfAway (q * 1000) := halfAway_nonneg (by linarith)
  obtain ⟨n, hn⟩ := Int.eq_ofNat_of_zero_le hnonneg
  unfold exactQuantity thousandths
  rw [hn, Int.toNat_natCast]
  split
  · refine ⟨.whole (List.cons_ne_nil '0' []) (allDigits_replicate 1), ?_⟩
    decide +kernel
  · rw [StandsFor, String.toList_ofList, NumberLayout.placesValue_digits (.inl rfl),
      Decimal.toRat_trimZeros]
    refine ⟨isPlaces_positional Nat.toDigits_ne_nil (allDigits_toDigits _) _, ?_⟩
    rw [Decimal.toRat, zpow_neg, ← div_eq_mul_inv]
    norm_num

/-- A spacing whose quarter is rounded to a number of halves has a sixteenth of as many eighths. -/
theorem thousandths_sixteenth {v : Rat} (hv : 0 ≤ v) {n : Nat} (h : thousandths (v / 4) = n / 2) :
    thousandths (v / 16) = n / 8 := by
  have hquarter : (halfAway (v / 4 * 1000) : Rat) = 500 * n := by
    unfold thousandths at h
    linarith
  have hnear := abs_halfAway_sub_le (q := v / 4 * 1000) (by linarith)
  rw [hquarter, abs_le] at hnear
  have hsixteenth : halfAway (v / 16 * 1000) = (125 * n : Nat) := by
    refine halfAway_eq (by linarith) ?_
    push_cast
    rw [abs_lt]
    constructor <;> linarith
  rw [thousandths, hsixteenth]
  push_cast
  ring

/-! ### Quantities in double precision -/

theorem toRat?_double {n : Nat} (hn : n < 50) : (ofInt (2 * n)).toRat? = some (2 * (n : Rat)) := by
  rw [toRat?_ofInt (by rw [abs_of_nonneg (by positivity)]; omega)]
  push_cast
  rfl

/-- A spacing whose quarter is written as that of an even number has the sixteenth of this number. -/
theorem quantity_sixteenth {v : Binary64} (hv : v.IsMagnitude) {n : Nat} (hn : n < 50)
    (h : (v / 4).quantity = (ofInt (2 * n) / 4).quantity) :
    IsPlaces (v / 16).quantity.toList ∧ (v / 16).quantity = (ofInt (2 * n) / 16).quantity := by
  have hnRat : (n : Rat) < 50 := by exact_mod_cast hn
  have heven : (ofInt (2 * n)).IsMagnitude := isMagnitude_round (by positivity)
  have hp := toRat?_double hn
  have hp' : 2 * (n : Rat) < 2 ^ 40 := by linarith
  have hfour : (0 : Rat) < 4 := by norm_num
  have hsixteen : (0 : Rat) < 16 := by norm_num
  rw [quantity_eq_iff (hv.div toRat?_four hfour) (heven.div toRat?_four hfour)] at h
  -- The quarter is shown as a small number, so the spacing is finite and close to the even number.
  obtain ⟨r, hr, hnear⟩ := exists_shown_quarter heven hp hp'
  have hr' : r < 2 ^ (6 : Int) := by
    rw [abs_lt] at hnear
    norm_num
    linarith
  obtain ⟨q, hq, hq'⟩ := exists_toRat?_of_shown_quarter hv hr' (h ▸ hr)
  have hclose := abs_sub_lt_of_shown_quarter_eq hv heven h hq hp hq' hp'
  have hn' : n < 2 ^ 30 := by omega
  have hshown := toRat?_shown_sixteenth hv hq hn' hclose
  have hshown' := toRat?_shown_sixteenth heven hp hn' (by rw [sub_self, abs_zero]; norm_num)
  have hvSixteenth := hv.div toRat?_sixteen hsixteen
  have hevenSixteenth := heven.div toRat?_sixteen hsixteen
  constructor
  · obtain hplaces | ⟨hnone, -⟩ := isPlaces_quantity_or hvSixteenth
    · exact hplaces
    · rw [hshown] at hnone
      cases hnone
  · rw [quantity_eq_iff hvSixteenth hevenSixteenth]
    exact hvSixteenth.shown.eq_of_toRat?_eq hevenSixteenth.shown hshown hshown'

/-! ### Keys of the spacing classes -/

/-- The keys count halves, as many as twice so many pixels have, but for the key of a single pixel. -/
theorem cases_of_mem_spacingScale : ∀ entry ∈ Style.spacingScale, entry.2 = "px" ∨ ∃ n : Nat, n < 50 ∧
    entry.1 = ofInt (2 * n) ∧ placesValue entry.2.toList = (n : Rat) / 2 := by decide +kernel

/-- Written as spacings of a theme, the sizes of the classes have their keys and their sizes. -/
theorem quantity_of_mem_spacingScale : ∀ entry ∈ Style.spacingScale, entry.2 = "px" ∨
    (entry.1 / 4).quantity = entry.2
      ∧ entry.1.toRat? = some (16 * placesValue (entry.1 / 16).quantity.toList) := by decide +kernel

theorem not_isPlaces_px : ¬IsPlaces "px".toList := by
  intro h
  exact absurd (h.isDigit_or_eq 'p' List.mem_cons_self) (by decide)

/-- If the spacing classes have the key, the size in rems is what the class of the key has in pixels. -/
def KeepsScale (key size : String) : Prop :=
  ∀ entry ∈ Style.spacingScale, entry.2 = key →
    ∃ rem, StandsFor size rem ∧ entry.1.toRat? = some (16 * rem)

/-- Exact arithmetic keeps the scale. -/
theorem keepsScale_exactQuantity {v : Rat} (hv : 0 < v) :
    KeepsScale (exactQuantity (v / 4)) (exactQuantity (v / 16)) := by
  intro entry hentry hkey
  obtain ⟨hplaces, hvalue⟩ := standsFor_exactQuantity (q := v / 4) (by linarith)
  rw [← hkey] at hplaces hvalue
  obtain hpx | ⟨n, hn, hpixels, hhalves⟩ := cases_of_mem_spacingScale entry hentry
  · rw [hpx] at hplaces
    exact absurd hplaces not_isPlaces_px
  · have hsize := standsFor_exactQuantity (q := v / 16) (by linarith)
    rw [thousandths_sixteenth hv.le (hvalue.symm.trans hhalves)] at hsize
    refine ⟨n / 8, hsize, ?_⟩
    rw [hpixels, toRat?_double hn]
    congr 1
    ring

/-- So does double precision. -/
theorem keepsScale_quantity {v : Binary64} (hv : 0 < v) :
    KeepsScale (v / 4).quantity (v / 16).quantity := by
  intro entry hentry hkey
  have hmagnitude := IsMagnitude.of_pos hv
  by_cases hpx : entry.2 = "px"
  · exfalso
    rw [hpx] at hkey
    obtain hplaces | ⟨-, hinf⟩ := isPlaces_quantity_or (hmagnitude.div toRat?_four (by norm_num))
    · exact not_isPlaces_px (hkey ▸ hplaces)
    · exact absurd (hkey.trans hinf) (by decide)
  · obtain ⟨n, hn, hpixels, -⟩ := (cases_of_mem_spacingScale entry hentry).resolve_left hpx
    obtain ⟨hquarter, hsixteenth⟩ := (quantity_of_mem_spacingScale entry hentry).resolve_left hpx
    rw [hpixels] at hquarter
    obtain ⟨hplaces, hsize⟩ := quantity_sixteenth hmagnitude hn (hkey.symm.trans hquarter.symm)
    rw [← hpixels] at hsize
    exact ⟨_, ⟨hplaces, rfl⟩, hsize ▸ hsixteenth⟩

/-- A size has the class of a key when the key is its own. -/
theorem spaced_eq_ofClass_iff {start name key : String} {px : Binary64} :
    Style.spaced start name px = Style.ofClass (start ++ "-" ++ key)
      ↔ Style.spacingKey? px = some key := by
  unfold Style.spaced
  cases Style.spacingKey? px with
  | none => exact ⟨fun h => absurd h.symm (Style.ofClass_ne_ofInline _ _ _), nofun⟩
  | some own =>
    constructor
    · intro h
      rw [Style.hyphen_injective start (Style.ofClass_injective h)]
    · intro h
      rw [Option.some.inj h]

/-- A size that has a class is close to the pixels of the class. -/
theorem exists_entry_of_spaced_eq {start name key : String} {px : Binary64}
    (h : Style.spaced start name px = Style.ofClass (start ++ "-" ++ key)) :
    ∃ entry ∈ Style.spacingScale, entry.2 = key ∧ ∃ p q, entry.1.toRat? = some q ∧ px.toRat? = some p
      ∧ |p - q| < Style.tolerance := by
  have hsearch := spaced_eq_ofClass_iff.mp h
  unfold Style.spacingKey? Style.Scale.find? at hsearch
  obtain ⟨entry, hfind, hkey⟩ := Option.map_eq_some_iff.mp hsearch
  have hwithin := List.find?_some hfind
  refine ⟨entry, List.mem_of_find?_eq_some hfind, hkey, ?_⟩
  dsimp only [within] at hwithin
  split at hwithin
  · next q p hq hp =>
    refine ⟨p, q, hq, hp, ?_⟩
    rw [abs_sub_comm, ← abs_eq_abs]
    exact of_decide_eq_true hwithin
  · cases hwithin

/--
**A theme never changes the size of a spacing class.** Where the key of a spacing is one of the
keys of the classes, sixteen times the size written next to it is the pixels of the class,
whether the theme is computed exactly or in double precision. The theme of any tokens has for each
spacing token a quarter of its value as the key and a sixteenth of it as the size. So where a size
in pixels gets a class that this theme defines, the theme gives the class this size, as closely as
sizes count as one.
-/
theorem themeText_keeps_spacing_classes :
    (∀ v : Rat, 0 < v → KeepsScale (exactQuantity (v / 4)) (exactQuantity (v / 16)))
      ∧ (∀ v : Binary64, 0 < v → KeepsScale (v / 4).quantity (v / 16).quantity)
      ∧ ∀ (roots : Forest Layer) (kinds : TokenKinds), ∃ theme,
        Theme.read? (TokenSet.extract roots kinds).themeText = some theme
          ∧ theme.spacing = (TokenSet.extract roots kinds).spacing.map (fun token =>
            ((token.value / 4).quantity, (token.value / 16).quantity ++ "rem"))
          ∧ ∀ e ∈ theme.spacing, ∃ size, e.2 = size ++ "rem" ∧ KeepsScale e.1 size
            ∧ ∀ start name px, Style.spaced start name px = Style.ofClass (start ++ "-" ++ e.1) →
              ∃ p rem, px.toRat? = some p ∧ StandsFor size rem ∧ |p - 16 * rem| < Style.tolerance := by
  refine ⟨fun v hv => keepsScale_exactQuantity hv, fun v hv => keepsScale_quantity hv,
    fun roots kinds => ⟨_, Theme.read?_text _, rfl, fun e he => ?_⟩⟩
  obtain ⟨token, htoken, rfl⟩ := List.mem_map.mp he
  have hkeeps := keepsScale_quantity (TokenSet.pos_of_mem_spacing htoken)
  refine ⟨_, rfl, hkeeps, fun start name px hclass => ?_⟩
  obtain ⟨entry, hentry, hkey, p, q, hq, hp, hclose⟩ := exists_entry_of_spaced_eq hclass
  obtain ⟨rem, hsize, hpixels⟩ := hkeeps entry hentry hkey
  obtain rfl : q = 16 * rem := Option.some.inj (hq.symm.trans hpixels)
  exact ⟨p, rem, hp, hsize, hclose⟩

/-- A layer with a left padding of twelve pixels and a gap a little below sixteen. -/
def narrowGap : Node :=
  .leaf { id := "1:1", kind := .frame, paddingLeft := some 12, itemSpacing := some 15.999 }

/-- The two spacings have the keys of classes in the theme, and the gap defines the class of sixteen
pixels with just this size. -/
theorem themeText_keeps_spacing_classes_narrowGap :
    ∃ theme, Theme.read? (TokenSet.extract [narrowGap] {}).themeText = some theme
      ∧ theme.spacing = [("3", "0.75rem"), ("4", "1rem")]
      ∧ Style.spaced "gap" "gap" 16 = Style.ofClass "gap-4"
      ∧ ∃ rem, StandsFor "1" rem ∧ |16 - 16 * rem| < Style.tolerance := by
  obtain ⟨-, -, hthemes⟩ := themeText_keeps_spacing_classes
  obtain ⟨theme, hread, hspacing, hkeeps⟩ := hthemes [narrowGap] {}
  have hsorted : (TokenSet.keptSpacings (Forest.values [narrowGap])).Pairwise (· ≤ ·) := by
    decide +kernel
  have hentries : theme.spacing = [("3", "0.75rem"), ("4", "1rem")] := by
    rw [hspacing, TokenSet.spacing_extract_of_pairwise hsorted]
    decide +kernel
  have hclass : Style.spaced "gap" "gap" 16 = Style.ofClass "gap-4" := by
    have hkey : Style.spacingKey? 16 = some "4" := by decide +kernel
    have htext : "gap" ++ "-" ++ "4" = "gap-4" := by decide
    rw [← htext]
    exact spaced_eq_ofClass_iff.mpr hkey
  have hmem : ("4", "1rem") ∈ theme.spacing := by
    rw [hentries]
    exact List.mem_cons_of_mem _ List.mem_cons_self
  obtain ⟨size, hsize, -, hclose⟩ := hkeeps _ hmem
  obtain rfl : "1" = size := (String.append_left_inj "rem").mp hsize
  obtain ⟨p, rem, hp, hrem, hnear⟩ := hclose "gap" "gap" 16 hclass
  have hsixteen : (16 : Binary64).toRat? = some 16 := by decide +kernel
  obtain rfl : p = 16 := Option.some.inj (hp.symm.trans hsixteen)
  exact ⟨theme, hread, hentries, hclass, rem, hrem, hnear⟩

end Handoff
