import Handoff.Proofs.Theme.Reader
import Handoff.Proofs.Theme.Groups
import Handoff.Proofs.Text.Search

/-!
# The first color with a place wins

The groups of any list of colors, said as a whole (`FirstWins`): the groups are those of
the colors in the order in which they first appear, each has the variants of its colors in
the same way, and the hex form of a variant is that of the first color with this place.

The place comes from the name of a color. A name with exactly one slash is divided there,
and any other name is a group of its own (`SplitsTo`), so that `brand` and `brand/DEFAULT`
have the same place.
-/

namespace Handoff

/-! ### Places -/

/-- The place that a name stands for. -/
inductive SplitsTo (name : String) : String × String → Prop where
  /-- A name with exactly one slash stands for what is before and what is behind it. -/
  | divided {group variant : String} (hname : name = group ++ "/" ++ variant)
      (hgroup : '/' ∉ group.toList) (hvariant : '/' ∉ variant.toList) : SplitsTo name (group, variant)
  /-- Any other name is a group, and the color is its default. -/
  | whole (h : name.toList.count '/' ≠ 1) : SplitsTo name (name, "DEFAULT")

theorem count_divided {group variant : List Char} (hgroup : '/' ∉ group) (hvariant : '/' ∉ variant) :
    (group ++ '/' :: variant).count '/' = 1 := by
  rw [List.count_append, List.count_cons_self, List.count_eq_zero_of_not_mem hgroup,
    List.count_eq_zero_of_not_mem hvariant]

/-- A list with one slash is divided at it. -/
theorem exists_divided_of_count {cs : List Char} (h : cs.count '/' = 1) :
    ∃ group variant, cs = group ++ '/' :: variant ∧ '/' ∉ group ∧ '/' ∉ variant := by
  have hmem : '/' ∈ cs := List.count_pos_iff.mp (by omega)
  obtain ⟨group, variant, rfl, hgroup⟩ := List.eq_append_cons_of_mem hmem
  refine ⟨group, variant, rfl, hgroup, List.count_eq_zero.mp ?_⟩
  rw [List.count_append, List.count_cons_self, List.count_eq_zero_of_not_mem hgroup] at h
  omega

/-- **What a name stands for**: it is divided at its only slash, or not at all. -/
theorem splitsTo_iff (name : String) (place : String × String) :
    SplitsTo name place ↔ splitColorName name = place := by
  constructor
  · intro h
    cases h with
    | divided hname hgroup hvariant =>
      have hparts := Text.splitOn_eq_pair_iff.mpr ⟨rfl, hgroup, hvariant⟩
      subst hname
      simp [splitColorName, hparts]
    | whole h =>
      unfold splitColorName
      split
      · next group variant hparts =>
        obtain ⟨hcs, hgroup, hvariant⟩ := Text.splitOn_eq_pair_iff.mp hparts
        rw [hcs, count_divided hgroup hvariant] at h
        exact absurd rfl h
      · rfl
  · rintro rfl
    unfold splitColorName
    split
    · next group variant hparts =>
      obtain ⟨hcs, hgroup, hvariant⟩ := Text.splitOn_eq_pair_iff.mp hparts
      refine .divided (String.toList_inj.mp ?_) (by simpa using hgroup) (by simpa using hvariant)
      simp [hcs]
    · next hparts =>
      refine .whole fun hcount => ?_
      obtain ⟨group, variant, hcs, hgroup, hvariant⟩ := exists_divided_of_count hcount
      exact hparts group variant (Text.splitOn_eq_pair_iff.mpr ⟨hcs, hgroup, hvariant⟩)

/-! ### Groups of colors -/

/-- The groups show each color at its place, unless an earlier color has the place. -/
structure FirstWins (colors : List ColorToken) (groups : List (String × ColorGroup)) : Prop where
  /-- The groups are those of the colors, in the order in which they first appear. -/
  names : FirstAppearances (colors.map (·.place.1)) (groups.map Prod.fst)
  /-- So are the variants of each group. -/
  variants : ∀ g ∈ groups, FirstAppearances
    ((colors.filter (·.place.1 = g.1)).map (·.place.2)) (g.2.map Prod.fst)
  /-- No group stands twice, and no variant stands twice in a group. -/
  once : OncePlaced groups
  /-- A variant has the hex form of the first color with its place, and there are no others. -/
  entries : ∀ name variant hex, (∃ group, (name, group) ∈ groups ∧ (variant, hex) ∈ group)
    ↔ ∃ t, colors.find? (fun t => t.place = (name, variant)) = some t ∧ t.hex = hex
  /-- Every color has a variant at its place. -/
  present : ∀ t ∈ colors, ∃ group, (t.place.1, group) ∈ groups ∧ t.place.2 ∈ group.map Prod.fst

/-- An entry of groups in which nothing stands twice is what is found at its place. -/
theorem OncePlaced.colorAt?_eq_some_iff {groups : List (String × ColorGroup)} (h : OncePlaced groups)
    (name variant hex : String) : colorAt? groups (name, variant) = some hex
      ↔ ∃ group, (name, group) ∈ groups ∧ (variant, hex) ∈ group := by
  rw [colorAt?, Option.bind_eq_some_iff]
  refine exists_congr fun group => ?_
  rw [lookup_eq_some_iff_mem h.names]
  refine and_congr_right fun hgroup => ?_
  exact lookup_eq_some_iff_mem (h.variants _ hgroup) variant hex

theorem firstWins_colorGroups (colors : List ColorToken) : FirstWins colors (colorGroups colors) := by
  have honce := oncePlaced_colorGroups colors
  have hentries : ∀ name variant hex,
      (∃ group, (name, group) ∈ colorGroups colors ∧ (variant, hex) ∈ group)
        ↔ ∃ t, colors.find? (fun t => t.place = (name, variant)) = some t ∧ t.hex = hex := by
    intro name variant hex
    rw [← honce.colorAt?_eq_some_iff, colorAt?_colorGroups, Option.map_eq_some_iff]
  refine ⟨firstAppearances_groups colors, fun g hg => ?_, honce, hentries, fun t ht => ?_⟩
  · have hvariants := firstAppearances_variants colors g.1
    rwa [(lookup_eq_some_iff_mem honce.names g.1 g.2).mpr hg] at hvariants
  · obtain ⟨first, hfirst⟩ : ∃ first, colors.find? (fun s => s.place = t.place) = some first := by
      rw [← Option.isSome_iff_exists, List.find?_isSome]
      exact ⟨t, ht, decide_eq_true rfl⟩
    obtain ⟨group, hgroup, hvariant⟩ := (hentries t.place.1 t.place.2 first.hex).mpr ⟨first, hfirst, rfl⟩
    exact ⟨group, hgroup, List.mem_map_of_mem (f := Prod.fst) hvariant⟩

/--
**The first color with a place wins.** The groups of any colors have the first color of each place,
groups and variants in the order in which they first appear, and nothing else; and this is what a
theme with these colors shows. The place is what the name of the color is divided into at its only
slash.
-/
theorem colorGroups_firstWins (colors : List ColorToken) :
    FirstWins colors (colorGroups colors)
      ∧ (∀ tokens : TokenSet, Theme.readColors? { tokens with colors := colors }.themeText
        = some (colorGroups colors))
      ∧ ∀ (t : ColorToken) (place : String × String), SplitsTo t.name place ↔ t.place = place :=
  ⟨firstWins_colorGroups colors,
    fun tokens => Theme.readColors?_text (Theme.ofTokens { tokens with colors }),
    fun t place => splitsTo_iff t.name place⟩

/-- The default of a group is its variant of this name, whichever comes first. -/
example :
    let color (name hex : String) : ColorToken := ⟨name, hex, ⟨0, 0, 0⟩, 1⟩
    colorGroups [color "brand/a" "#1", color "x/y/z" "#2", color "brand" "#3", color "brand/DEFAULT" "#4"]
      = [("brand", [("a", "#1"), ("DEFAULT", "#3")]), ("x/y/z", [("DEFAULT", "#2")])] := by
  decide +kernel

end Handoff
