import Handoff.Proofs.Distinct
import Handoff.Theme
import Mathlib.Data.List.Induction

/-!
# Groups of colors as a table

A color has a place in a theme: a group, and a variant in it. The groups are a
table from places to hex forms. One more color changes nothing but its own group,
where its variant comes last, unless the group has it already
(`lookup_addColor`); so it leaves what stands in the table and fills its own place
if that was empty (`colorAt?_addColor`). After any list of colors every place has
the hex form of the first color with that place, and the others are empty
(`colorAt?_colorGroups`). Groups and variants stand in the order in which colors
have them first (`firstAppearances_groups`, `firstAppearances_variants`), and none
stands twice (`oncePlaced_colorGroups`), so that the table has one entry for a place.
-/

namespace Handoff

/-- The group and the variant that a color stands for. -/
def ColorToken.place (t : ColorToken) : String × String := splitColorName t.name

/-- The hex form at a place. -/
def colorAt? (groups : List (String × ColorGroup)) (place : String × String) : Option String :=
  (groups.lookup place.1).bind fun group => group.lookup place.2

/-- No group stands twice, and no variant stands twice in a group. -/
structure OncePlaced (groups : List (String × ColorGroup)) : Prop where
  names : (groups.map Prod.fst).Nodup
  variants : ∀ g ∈ groups, (g.2.map Prod.fst).Nodup

/-! ### What stands where -/

theorem lookup_cons_eq {α β : Type} [DecidableEq α] (a : α) (b : β) (table : List (α × β)) (k : α) :
    ((a, b) :: table).lookup k = if k = a then some b else table.lookup k := by
  by_cases h : k = a
  · simp [h]
  · rw [List.lookup_cons, beq_false_of_ne h, if_neg h]

/-- One more variant leaves what stands in the group. -/
theorem ColorGroup.lookup_add (variant hex : String) (group : ColorGroup) (v : String) :
    (ColorGroup.add variant hex group).lookup v
      = (group.lookup v).or (if v = variant then some hex else none) := by
  unfold ColorGroup.add
  split
  · next hany =>
    by_cases hv : v = variant
    · obtain ⟨entry, hentry, hkey⟩ := List.any_eq_true.mp hany
      have hsome : (group.lookup v).isSome := by
        rw [List.lookup_isSome_iff]
        exact ⟨entry, hentry, by rw [hv, beq_iff_eq, beq_iff_eq.mp hkey]⟩
      obtain ⟨shown, hshown⟩ := Option.isSome_iff_exists.mp hsome
      rw [hshown, Option.some_or]
    · rw [if_neg hv, Option.or_none]
  · rw [List.lookup_append, List.lookup_singleton]
    simp

/-- One more color changes its own group and no other. -/
theorem lookup_addColor (name variant hex : String) (groups : List (String × ColorGroup)) (n : String) :
    (addColor name variant hex groups).lookup n
      = if n = name then some (ColorGroup.add variant hex ((groups.lookup name).getD []))
        else groups.lookup n := by
  induction groups with
  | nil => rw [addColor, lookup_cons_eq]; rfl
  | cons first more ih =>
    obtain ⟨other, group⟩ := first
    by_cases hother : other = name
    · subst hother
      rw [addColor, if_pos rfl, lookup_cons_eq, lookup_cons_eq, lookup_cons_eq, if_pos rfl]
      by_cases hn : n = other
      · rw [if_pos hn, if_pos hn]; rfl
      · rw [if_neg hn, if_neg hn, if_neg hn]
    · rw [addColor, if_neg hother, lookup_cons_eq, lookup_cons_eq, lookup_cons_eq, ih,
        if_neg (Ne.symm hother)]
      by_cases hn : n = other
      · rw [if_pos hn, if_pos hn, if_neg (hn ▸ hother)]
      · rw [if_neg hn, if_neg hn]

/-- One more color leaves what stands in the groups. -/
theorem colorAt?_addColor (name variant hex : String) (groups : List (String × ColorGroup))
    (place : String × String) : colorAt? (addColor name variant hex groups) place
      = (colorAt? groups place).or (if place = (name, variant) then some hex else none) := by
  obtain ⟨n, v⟩ := place
  rw [colorAt?, lookup_addColor, colorAt?]
  by_cases hn : n = name
  · subst hn
    rw [if_pos rfl, Option.bind_some, ColorGroup.lookup_add]
    cases groups.lookup n <;> simp
  · rw [if_neg hn, if_neg (by simp [hn]), Option.or_none]

/-- The colors of a list are added one after the other. -/
theorem colorGroups_concat (colors : List ColorToken) (t : ColorToken) :
    colorGroups (colors ++ [t]) = addColor t.place.1 t.place.2 t.hex (colorGroups colors) :=
  List.foldl_concat _ _ t colors

/-- **The first color with a place is the one that stands there.** -/
theorem colorAt?_colorGroups (colors : List ColorToken) (place : String × String) :
    colorAt? (colorGroups colors) place
      = (colors.find? fun t => t.place = place).map (·.hex) := by
  induction colors using List.reverseRecOn with
  | nil => rfl
  | append_singleton colors t ih =>
    rw [colorGroups_concat, colorAt?_addColor, ih, List.find?_append, Option.map_or]
    congr 1
    by_cases ht : t.place = place
    · simp [← ht]
    · have hplace : place ≠ (t.place.1, t.place.2) := Ne.symm ht
      simp [ht, hplace]

/-! ### In which order -/

/-- The variants of a group stay in order, and a new one comes last. -/
theorem ColorGroup.map_fst_add (variant hex : String) (group : ColorGroup) :
    (ColorGroup.add variant hex group).map Prod.fst
      = if variant ∈ group.map Prod.fst then group.map Prod.fst
        else group.map Prod.fst ++ [variant] := by
  have hany : group.any (·.1 == variant) = true ↔ variant ∈ group.map Prod.fst := by
    simp [List.any_eq_true]
  by_cases hmem : variant ∈ group.map Prod.fst
  · rw [ColorGroup.add, if_pos (hany.mpr hmem), if_pos hmem]
  · rw [ColorGroup.add, if_neg (mt hany.mp hmem), if_neg hmem, List.map_append]
    rfl

/-- The groups stay in order, and a new one comes last. -/
theorem map_fst_addColor (name variant hex : String) (groups : List (String × ColorGroup)) :
    (addColor name variant hex groups).map Prod.fst
      = if name ∈ groups.map Prod.fst then groups.map Prod.fst
        else groups.map Prod.fst ++ [name] := by
  induction groups with
  | nil => rfl
  | cons first more ih =>
    obtain ⟨other, group⟩ := first
    by_cases hother : other = name
    · simp [addColor, hother]
    · rw [addColor, if_neg hother, List.map_cons, ih, List.map_cons]
      by_cases hmem : name ∈ more.map Prod.fst
      · rw [if_pos hmem, if_pos (List.mem_cons_of_mem _ hmem)]
      · rw [if_neg hmem, if_neg (List.not_mem_cons_of_ne_of_not_mem (Ne.symm hother) hmem)]
        rfl

/-- Groups stand in the order in which colors have them first. -/
theorem firstAppearances_groups (colors : List ColorToken) :
    FirstAppearances (colors.map (·.place.1)) ((colorGroups colors).map Prod.fst) := by
  induction colors using List.reverseRecOn with
  | nil => exact .nil
  | append_singleton colors t ih =>
    rw [colorGroups_concat, map_fst_addColor, List.map_append]
    exact ih.concat t.place.1

/-- The variants of a group stand in the order in which colors of the group have them first. -/
theorem firstAppearances_variants (colors : List ColorToken) (name : String) :
    FirstAppearances ((colors.filter (·.place.1 = name)).map (·.place.2))
      ((((colorGroups colors).lookup name).getD []).map Prod.fst) := by
  induction colors using List.reverseRecOn with
  | nil => exact .nil
  | append_singleton colors t ih =>
    rw [colorGroups_concat, lookup_addColor, List.filter_append, List.map_append]
    by_cases hname : t.place.1 = name
    · subst hname
      rw [if_pos rfl, Option.getD_some, ColorGroup.map_fst_add, List.filter_cons_of_pos (by simp)]
      exact ih.concat t.place.2
    · rw [if_neg (Ne.symm hname), List.filter_cons_of_neg (by simpa using hname)]
      simpa using ih

/-! ### Nothing stands twice -/

/-- Under keys that stand once, an entry of a table is what is found under its key. -/
theorem lookup_eq_some_iff_mem {α β : Type} [DecidableEq α] {table : List (α × β)}
    (h : (table.map Prod.fst).Nodup) (k : α) (v : β) : table.lookup k = some v ↔ (k, v) ∈ table := by
  induction table with
  | nil => simp
  | cons entry table ih =>
    obtain ⟨a, b⟩ := entry
    obtain ⟨hnew, htable⟩ := List.nodup_cons.mp h
    rw [lookup_cons_eq, List.mem_cons, Prod.mk.injEq]
    by_cases hk : k = a
    · subst hk
      have hnone : (k, v) ∉ table := fun hmem => hnew (List.mem_map.mpr ⟨(k, v), hmem, rfl⟩)
      simp [hnone, eq_comm]
    · simp [hk, ih htable]

/-- **No group stands twice**, and no variant stands twice in a group. -/
theorem oncePlaced_colorGroups (colors : List ColorToken) : OncePlaced (colorGroups colors) := by
  have hnames : ((colorGroups colors).map Prod.fst).Nodup := (firstAppearances_groups colors).nodup
  refine ⟨hnames, fun g hg => ?_⟩
  have hvariants := (firstAppearances_variants colors g.1).nodup
  rwa [(lookup_eq_some_iff_mem hnames g.1 g.2).mpr hg] at hvariants

end Handoff
