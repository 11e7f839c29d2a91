import Handoff.Proofs.Binary64.Order
import Handoff.Proofs.Token.Usage
import Mathlib.Data.List.Sort

/-!
# Spacings in order

The spacing tokens of a forest are a set of numbers: the paddings and item
spacings of all its layers that are greater than zero, each once, the smallest
first (`TokenSet.extract_spacing_ascending`). Such a list is determined by what is
in it, so where a number stands in the forest makes no difference.

Sorting compares numbers as the format does, and this is no order: nothing compares
with what is no number, and the two zeros are different but equal. It is one on the
numbers greater than zero, and no others are sorted (`TokenSet.pairwise_lt_rank`).
-/

namespace Handoff

open Binary64

namespace TokenSet

/-- The spacings of layers that are greater than zero, each once and not sorted. -/
def keptSpacings (layers : List Layer) : List Binary64 :=
  distinctBy Binary64.unsignedZero (layers.flatMap Layer.spacings)

variable {layers : List Layer}

theorem pos_of_mem_spacings {x : Binary64} (h : x ∈ layers.flatMap Layer.spacings) : 0 < x := by
  obtain ⟨l, -, hx⟩ := List.mem_flatMap.mp h
  exact (Layer.mem_spacings_iff.mp hx).2

theorem mem_keptSpacings_iff {x : Binary64} :
    x ∈ keptSpacings layers ↔ x ∈ layers.flatMap Layer.spacings := by
  refine ⟨mem_of_mem_distinctBy _, fun h => ?_⟩
  obtain ⟨y, hy, hkey⟩ := exists_mem_distinctBy Binary64.unsignedZero h
  have hpos := pos_of_mem_spacings (mem_of_mem_distinctBy _ hy)
  rw [unsignedZero_of_pos hpos, unsignedZero_of_pos (pos_of_mem_spacings h)] at hkey
  rwa [← hkey]

theorem nodup_keptSpacings (layers : List Layer) : (keptSpacings layers).Nodup :=
  (pairwise_distinctBy _ _).imp fun h heq => h (congrArg _ heq)

/-! ### Values of tokens -/

/-- The values of the spacing tokens. -/
def spacingValues (layers : List Layer) : List Binary64 :=
  (keptSpacings layers).mergeSort fun x y => x ≤ y

theorem spacingOf_eq (layers : List Layer) :
    spacingOf layers = (spacingValues layers).map fun x => ⟨Token.spacingName x, x⟩ := rfl

theorem mem_spacingValues_iff {x : Binary64} :
    x ∈ spacingValues layers ↔ x ∈ layers.flatMap Layer.spacings :=
  List.mem_mergeSort.trans mem_keptSpacings_iff

theorem perm_spacingValues (layers : List Layer) : (spacingValues layers).Perm (keptSpacings layers) :=
  List.mergeSort_perm _ _

theorem pairwise_lt_rank (layers : List Layer) :
    (spacingValues layers).Pairwise fun x y => x.rank < y.rank := by
  have hpos : ∀ x ∈ spacingValues layers, 0 < x :=
    fun x hx => pos_of_mem_spacings (mem_spacingValues_iff.mp hx)
  have hrank : (spacingValues layers).map rank
      = ((keptSpacings layers).map rank).mergeSort fun p q => p ≤ q := by
    refine List.map_mergeSort fun x hx y hy => decide_eq_decide.mpr ?_
    exact le_iff_rank (pos_of_mem_spacings (mem_keptSpacings_iff.mp hx))
      (pos_of_mem_spacings (mem_keptSpacings_iff.mp hy))
  have hsorted : ((spacingValues layers).map rank).Pairwise (· ≤ ·) := by
    rw [hrank]
    exact List.pairwise_mergeSort' (· ≤ ·) _
  have hdistinct := (perm_spacingValues layers).nodup_iff.mpr (nodup_keptSpacings layers)
  refine ((List.pairwise_map.mp hsorted).and hdistinct).imp_of_mem fun hx hy ⟨hle, hne⟩ => ?_
  exact lt_of_le_of_ne hle fun heq => hne (eq_of_rank_eq (hpos _ hx) (hpos _ hy) heq)

/-- The spacings ascend. -/
theorem pairwise_lt_spacingValues (layers : List Layer) : (spacingValues layers).Pairwise (· < ·) := by
  refine (pairwise_lt_rank layers).imp_of_mem fun hx hy h => ?_
  exact (lt_iff_rank (pos_of_mem_spacings (mem_spacingValues_iff.mp hx))
    (pos_of_mem_spacings (mem_spacingValues_iff.mp hy))).mpr h

/-- Layers with the same spacings, in whatever order and how often, have the same spacing tokens. -/
theorem spacingOf_congr {layers' : List Layer}
    (h : ∀ x, x ∈ layers.flatMap Layer.spacings ↔ x ∈ layers'.flatMap Layer.spacings) :
    spacingOf layers = spacingOf layers' := by
  have hkept : (keptSpacings layers).Perm (keptSpacings layers') := by
    refine (List.perm_ext_iff_of_nodup (nodup_keptSpacings _) (nodup_keptSpacings _)).mpr fun x => ?_
    rw [mem_keptSpacings_iff, mem_keptSpacings_iff, h]
  have hvalues : spacingValues layers = spacingValues layers' := by
    refine List.Perm.eq_of_pairwise (fun x y _ _ hxy hyx => absurd hyx hxy.not_gt)
      (pairwise_lt_rank layers) (pairwise_lt_rank layers') ?_
    exact (perm_spacingValues layers).trans (hkept.trans (perm_spacingValues layers').symm)
  rw [spacingOf_eq, spacingOf_eq, hvalues]

/-! ### Tokens -/

theorem pos_of_mem_spacing {roots : Forest Layer} {kinds : TokenKinds} {t : SpacingToken}
    (h : t ∈ (extract roots kinds).spacing) : 0 < t.value := by
  dsimp only [extract] at h
  split at h
  · rw [spacingOf_eq] at h
    obtain ⟨x, hx, rfl⟩ := List.mem_map.mp h
    exact pos_of_mem_spacings (mem_spacingValues_iff.mp hx)
  · cases h

/-- Spacings that are found in ascending order are left so. -/
theorem spacing_extract_of_pairwise {roots : Forest Layer}
    (h : (keptSpacings roots.values).Pairwise (· ≤ ·)) :
    (extract roots {}).spacing
      = (keptSpacings roots.values).map fun x => ⟨Token.spacingName x, x⟩ := by
  have hvalues : spacingValues roots.values = keptSpacings roots.values :=
    List.mergeSort_of_pairwise (h.imp decide_eq_true)
  rw [← hvalues]
  exact spacingOf_eq roots.values

theorem pairwise_lt_spacing (roots : Forest Layer) (kinds : TokenKinds) :
    (extract roots kinds).spacing.Pairwise fun s t => s.value < t.value := by
  dsimp only [extract]
  split
  · rw [spacingOf_eq, List.pairwise_map]
    exact pairwise_lt_spacingValues _
  · exact .nil

/-- **Spacing tokens are the positive spacings, ascending.** Each token has a value that is greater
than zero and is named for it, a number is the value of a token exactly when it is such a spacing of
some layer, and it makes no difference how roots and siblings are ordered. -/
theorem extract_spacing_ascending {kinds : TokenKinds} (hkind : kinds.spacing = true)
    (roots : Forest Layer) :
    (extract roots kinds).spacing.Pairwise (fun s t => s.value < t.value)
      ∧ (∀ t ∈ (extract roots kinds).spacing, 0 < t.value ∧ t.name = Token.spacingName t.value)
      ∧ (∀ x, (∃ t ∈ (extract roots kinds).spacing, t.value = x) ↔ 0 < x ∧ ∃ n ∈ roots.subtrees,
        some x ∈ [n.value.paddingTop, n.value.paddingRight, n.value.paddingBottom,
          n.value.paddingLeft, n.value.itemSpacing])
      ∧ ∀ roots', roots.Rearranged roots' →
        (extract roots' kinds).spacing = (extract roots kinds).spacing := by
  have hspacing : ∀ roots, (extract roots kinds).spacing = spacingOf roots.values :=
    fun _ => if_pos hkind
  have hname : ∀ t ∈ (extract roots kinds).spacing, t.name = Token.spacingName t.value := by
    rw [hspacing, spacingOf_eq, List.forall_mem_map]
    exact fun _ _ => rfl
  have hgiven : ∀ x, x ∈ roots.values.flatMap Layer.spacings ↔ 0 < x ∧ ∃ n ∈ roots.subtrees,
      some x ∈ [n.value.paddingTop, n.value.paddingRight, n.value.paddingBottom,
        n.value.paddingLeft, n.value.itemSpacing] := by
    intro x
    simp only [Forest.values_eq_map_subtrees, List.flatMap_map, List.mem_flatMap, Layer.mem_spacings_iff]
    exact ⟨fun ⟨n, hn, hx, hpos⟩ => ⟨hpos, n, hn, hx⟩, fun ⟨hpos, n, hn, hx⟩ => ⟨n, hn, hx, hpos⟩⟩
  refine ⟨pairwise_lt_spacing roots kinds, fun t ht => ⟨pos_of_mem_spacing ht, hname t ht⟩,
    fun x => ?_, fun roots' h => ?_⟩
  · rw [← hgiven, ← mem_spacingValues_iff, hspacing, spacingOf_eq]
    simp
  · rw [hspacing, hspacing]
    exact spacingOf_congr fun x => (h.perm_values.flatMap_right Layer.spacings).mem_iff.symm

/-- A card whose left padding is hardly more than its right one, with two boxes in it and one before
it. The boxes in the card change places, and the one before the card comes last. -/
theorem extract_spacing_ascending_card :
    let box (id : String) (gap : Binary64) : Node :=
      .leaf { id := id, kind := .frame, itemSpacing := some gap }
    let card (inside : List Node) : Node := ⟨{
      id := "1:1"
      kind := .frame
      paddingRight := some 8.5
      paddingLeft := some 8.500001 }, inside⟩
    let roots := [box "1:4" 4, card [box "1:3" .negativeZero, box "1:2" 8.5]]
    let roots' := [card [box "1:2" 8.5, box "1:3" .negativeZero], box "1:4" 4]
    (extract roots {}).spacing.Pairwise (fun s t => s.value < t.value)
      ∧ (extract roots' {}).spacing.map (·.value) = [4, 8.5, 8.500001] := by
  intro box card roots roots'
  obtain ⟨hascending, -, -, horder⟩ := @extract_spacing_ascending {} rfl roots
  have hrearranged : Forest.Rearranged roots roots' :=
    .trans (.swap _ _ .nil) (.cons _ (.of_perm (.swap _ _ _)) (.refl _))
  have hvalues : (extract roots {}).spacing.map (·.value) = [4, 8.5, 8.500001] := by
    have hsorted : (keptSpacings (Forest.values roots)).Pairwise (· ≤ ·) := by decide +kernel
    rw [spacing_extract_of_pairwise hsorted]
    decide +kernel
  rw [horder roots' hrearranged]
  exact ⟨hascending, hvalues⟩

end TokenSet

end Handoff
