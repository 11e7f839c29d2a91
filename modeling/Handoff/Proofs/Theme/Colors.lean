import Handoff.Proofs.Text.Search
import Handoff.Proofs.Theme.Groups
import Handoff.Proofs.Theme.Reader
import Handoff.Proofs.Token.Name
import Handoff.Proofs.Token.Occurrences

/-!
# What a theme shows of the colors of a design

The tokens of a design have different hex forms, but their places in a theme come
from their names, and a name has only the first four digits. So tokens can have
the same place (`place_eq_iff`), and then the theme shows the first of them. What
can be read back from the text of a theme is these first colors and nothing else
(`themeText_shows_first_of_name`).
-/

namespace Handoff

/-! ### Places -/

/-- The name that stands for a place. -/
def nameOfPlace (place : String × String) : String :=
  if place.2 = defaultVariant then place.1 else place.1 ++ "/" ++ place.2

/-- A name can be told from its place, unless it ends in the default variant. -/
theorem nameOfPlace_splitColorName {name : String} (h : name.toList.getLast? ≠ some 'T') :
    nameOfPlace (splitColorName name) = name := by
  unfold splitColorName
  split
  · next group variant hparts =>
    obtain ⟨hname, -, -⟩ := Text.splitOn_eq_pair_iff.mp hparts
    have hvariant : String.ofList variant ≠ defaultVariant := by
      intro hdefault
      refine h ?_
      rw [hname, ← String.toList_ofList (l := variant), hdefault]
      simp [defaultVariant]
    rw [nameOfPlace, if_neg hvariant, ← String.toList_inj, hname]
    simp
  · exact if_pos rfl

namespace SolidFill

/-- Two fills get the same name: that of their layers, and the first four digits of the hex form. -/
def SameName (f g : SolidFill) : Prop :=
  Token.colorBase f.layer.name = Token.colorBase g.layer.name
    ∧ f.color.hex.toList.take 5 = g.color.hex.toList.take 5

theorem token_hex (f : SolidFill) : f.token.hex = f.color.hex := rfl

theorem getLast?_name (f : SolidFill) : f.token.name.toList.getLast? ≠ some 'T' := by
  obtain ⟨n, hn, hlast⟩ := Token.getLast?_colorName f.layer.name f.color.rgb8
  have hdigit : ∀ n < 16, Text.lowerHexDigit n ≠ 'T' := by decide
  rw [token, Color.hex, hlast]
  exact mt Option.some.inj (hdigit n hn)

/-- Fills have the same place in a theme when they get the same name. -/
theorem place_eq_iff (f g : SolidFill) : f.token.place = g.token.place ↔ f.SameName g := by
  have hname : f.token.name = g.token.name ↔ f.SameName g :=
    Token.colorName_eq_iff f.layer.name g.layer.name f.color.rgb8 g.color.rgb8
  rw [← hname]
  constructor
  · intro h
    rw [← nameOfPlace_splitColorName f.getLast?_name, ← nameOfPlace_splitColorName g.getLast?_name]
    exact congrArg nameOfPlace h
  · exact congrArg splitColorName

end SolidFill

namespace TokenSet

/-! ### What is shown -/

/-- Every color has a place of its own, and the groups show it there. -/
def EachShown (colors : List ColorToken) (groups : List (String × ColorGroup)) : Prop :=
  colors.Pairwise (fun a b => a.place ≠ b.place)
    ∧ ∀ a ∈ colors, colorAt? groups a.place = some a.hex

instance (colors : List ColorToken) (groups : List (String × ColorGroup)) :
    Decidable (EachShown colors groups) := inferInstanceAs (Decidable (_ ∧ _))

/-- Of the fills that have the same name, the groups show the first. -/
structure ShowsFirstOfName (fills : List SolidFill) (groups : List (String × ColorGroup)) :
    Prop where
  once : OncePlaced groups
  shared : ∀ f ∈ fills, ∀ g ∈ fills, f.token.place = g.token.place ↔ f.SameName g
  first : ∀ place, colorAt? groups place
    = (fills.find? fun f => f.token.place = place).map (·.color.hex)
  own : ∀ before f after, fills = before ++ f :: after →
    (colorAt? groups f.token.place = some f.color.hex ↔ ∀ g ∈ before, ¬ g.SameName f)
  each : EachShown (fills.map SolidFill.token) groups ↔ fills.Pairwise fun f g => ¬ f.SameName g

theorem colorAt?_tokens (fills : List SolidFill) (place : String × String) :
    colorAt? (colorGroups (fills.map SolidFill.token)) place
      = (fills.find? fun f => f.token.place = place).map (·.color.hex) := by
  simp only [colorAt?_colorGroups, List.find?_map, Option.map_map, Function.comp_def,
    SolidFill.token_hex]

/-- Among fills with different hex forms, one is shown when none before it has its name. -/
theorem colorAt?_place_iff {before after : List SolidFill} {f : SolidFill}
    (hhex : (before ++ f :: after).Pairwise fun f g => f.color.hex ≠ g.color.hex) :
    colorAt? (colorGroups ((before ++ f :: after).map SolidFill.token)) f.token.place
        = some f.color.hex
      ↔ ∀ g ∈ before, ¬ g.SameName f := by
  rw [colorAt?_tokens, List.find?_append]
  cases hfound : before.find? fun g => g.token.place = f.token.place with
  | none =>
    rw [Option.none_or, List.find?_cons_of_pos (by simp)]
    refine iff_of_true rfl fun g hg hname => ?_
    exact List.find?_eq_none.mp hfound g hg (decide_eq_true ((g.place_eq_iff f).mpr hname))
  | some g =>
    -- The place shows `g`, and no other token has its hex form.
    have hg := List.mem_of_find?_eq_some hfound
    have hplace : g.token.place = f.token.place := by simpa using List.find?_some hfound
    have hne := (List.pairwise_append.mp hhex).2.2 g hg f List.mem_cons_self
    rw [Option.some_or, Option.map_some]
    refine iff_of_false (mt Option.some.inj hne) fun h => ?_
    exact h g hg ((g.place_eq_iff f).mp hplace)

theorem eachShown_iff {fills : List SolidFill}
    (hhex : fills.Pairwise fun f g => f.color.hex ≠ g.color.hex) :
    EachShown (fills.map SolidFill.token) (colorGroups (fills.map SolidFill.token))
      ↔ fills.Pairwise fun f g => ¬ f.SameName g := by
  have hplaces : (fills.map SolidFill.token).Pairwise (fun a b => a.place ≠ b.place)
      ↔ fills.Pairwise fun f g => ¬ f.SameName g := by
    simp only [List.pairwise_map, ne_eq, SolidFill.place_eq_iff]
  rw [← hplaces]
  refine ⟨fun h => h.1, fun h => ⟨h, ?_⟩⟩
  intro a ha
  obtain ⟨f, hf, rfl⟩ := List.mem_map.mp ha
  obtain ⟨before, after, rfl⟩ := List.append_of_mem hf
  have hbefore := (List.pairwise_append.mp (hplaces.mp h)).2.2
  exact (colorAt?_place_iff hhex).mpr fun g hg => hbefore g hg f List.mem_cons_self

theorem showsFirstOfName_colorGroups {fills : List SolidFill}
    (hhex : fills.Pairwise fun f g => f.color.hex ≠ g.color.hex) :
    ShowsFirstOfName fills (colorGroups (fills.map SolidFill.token)) where
  once := oncePlaced_colorGroups _
  shared := fun f _ g _ => f.place_eq_iff g
  first := colorAt?_tokens fills
  own := by
    rintro before f after rfl
    exact colorAt?_place_iff hhex
  each := eachShown_iff hhex

/-! ### The colors of a forest -/

theorem colors_extract (roots : Forest Layer) (kinds : TokenKinds) :
    (extract roots { kinds with colors := true }).colors
      = (firstOf SolidFill.SameHex (solidFills roots)).map SolidFill.token :=
  (firstOccurrences_extract roots { kinds with colors := true }).colors

theorem pairwise_hex_firstOf (roots : Forest Layer) :
    (firstOf SolidFill.SameHex (solidFills roots)).Pairwise fun f g => f.color.hex ≠ g.color.hex := by
  have hcolors := (onePerKey_extract roots {}).colors
  rw [colors_extract roots {}, List.pairwise_map] at hcolors
  exact hcolors

/--
**A theme shows the first color of each name.** The tokens of a forest come from fills with different
hex forms. Those with the same name have the same place in the text of the theme, which shows the
first of them there; so each is shown exactly if no two have the same name.
-/
theorem themeText_shows_first_of_name (roots : Forest Layer) (kinds : TokenKinds) :
    (extract roots { kinds with colors := true }).colors
        = (firstOf SolidFill.SameHex (solidFills roots)).map SolidFill.token
      ∧ ∃ groups, Theme.readColors? (extract roots { kinds with colors := true }).themeText
          = some groups
        ∧ ShowsFirstOfName (firstOf SolidFill.SameHex (solidFills roots)) groups := by
  refine ⟨colors_extract roots kinds, _, Theme.readColors?_text _, ?_⟩
  have hshows := showsFirstOfName_colorGroups (pairwise_hex_firstOf roots)
  rwa [← colors_extract roots kinds] at hshows

/-- A layer with two fills, whose hex forms are different in the last digit. -/
def twoReds : Layer where
  id := "1:1"
  name := "a"
  kind := .rectangle
  fills := [.solid ⟨1, 0, 0, 1⟩, .solid ⟨1, 0, 0.004, 1⟩]

/-- The theme does not show each of two colors that have the same name. -/
theorem not_eachShown_twoReds :
    ¬ ∃ groups, Theme.readColors? (extract [Tree.leaf twoReds] {}).themeText = some groups
      ∧ EachShown (extract [Tree.leaf twoReds] {}).colors groups := by
  rintro ⟨groups, hread, heach⟩
  rw [themeText, Theme.readColors?_text] at hread
  cases hread
  have hnot : ¬ EachShown (extract [Tree.leaf twoReds] {}).colors
      (colorGroups (extract [Tree.leaf twoReds] {}).colors) := by
    decide +kernel
  exact hnot heach

end TokenSet

end Handoff
