import Handoff.Token.Extract
import Mathlib.Data.List.Nodup

/-!
# First occurrences

What it means that an item is kept for being the first of its kind, said by
positions: an item of a list is kept when no item at an earlier position is the
same (`firstOf`). Items without those whose key an earlier item has are the first
occurrences in this sense (`distinctBy_map`): no two that are kept have the same
key (`pairwise_distinctBy`), and every key is kept
(`exists_mem_distinctBy`).
-/

namespace Handoff

variable {α β κ : Type}

/-- The items that no item at an earlier position is the same as, in order. -/
def firstOf (same : α → α → Prop) [DecidableRel same] (xs : List α) : List α :=
  ((List.finRange xs.length).filter fun i => ∀ j < i, ¬ same (xs.get j) (xs.get i)).map xs.get

theorem firstOf_cons (same : α → α → Prop) [DecidableRel same] (a : α) (xs : List α) :
    firstOf same (a :: xs) = a :: (firstOf same xs).filter fun b => ¬ same a b := by
  have hrange : List.finRange (a :: xs).length = 0 :: (List.finRange xs.length).map Fin.succ :=
    List.finRange_succ
  have hstep : ∀ i : Fin xs.length,
      (∀ j < i.succ, ¬ same ((a :: xs).get j) ((a :: xs).get i.succ))
        ↔ (∀ j < i, ¬ same (xs.get j) (xs.get i)) ∧ ¬ same a (xs.get i) := by
    intro i
    constructor
    · intro h
      exact ⟨fun j hj => h j.succ (Fin.succ_lt_succ_iff.mpr hj), h 0 (Fin.succ_pos i)⟩
    · rintro ⟨h, ha⟩ j hj
      cases j using Fin.cases with
      | zero => exact ha
      | succ j => exact h j (Fin.succ_lt_succ_iff.mp hj)
  have htail : ((List.finRange xs.length).filter fun i : Fin xs.length =>
        ∀ j < i.succ, ¬ same ((a :: xs).get j) ((a :: xs).get i.succ))
      = ((List.finRange xs.length).filter fun i => ∀ j < i, ¬ same (xs.get j) (xs.get i)).filter
        fun i => ¬ same a (xs.get i) := by
    rw [List.filter_filter]
    refine List.filter_congr fun i _ => ?_
    rw [← Bool.decide_and, decide_eq_decide, hstep i, and_comm]
  rw [firstOf, hrange, List.filter_cons_of_pos (by simp), List.map_cons, List.filter_map,
    List.map_map, firstOf, List.filter_map]
  exact congrArg (fun l => a :: List.map xs.get l) htail

theorem mem_of_mem_firstOf (same : α → α → Prop) [DecidableRel same] {xs : List α} {a : α}
    (h : a ∈ firstOf same xs) : a ∈ xs := by
  obtain ⟨i, -, rfl⟩ := List.mem_map.mp h
  exact List.get_mem xs i

/-- The items that are kept for their keys are the first occurrences. -/
theorem distinctBy_map [DecidableEq κ] {key : β → κ} {f : α → β} {same : α → α → Prop}
    [DecidableRel same] (h : ∀ a b, key (f a) = key (f b) ↔ same a b) (xs : List α) :
    distinctBy key (xs.map f) = (firstOf same xs).map f := by
  induction xs with
  | nil => rfl
  | cons a xs ih =>
    rw [List.map_cons, distinctBy, ih, firstOf_cons, List.map_cons, List.filter_map]
    congr 2
    refine List.filter_congr fun b _ => ?_
    rw [Function.comp_apply, decide_eq_decide, ← h a b]
    exact not_congr eq_comm

/-! ### What is kept -/

variable [DecidableEq κ] (key : α → κ)

/-- No two items that are kept have the same key. -/
theorem pairwise_distinctBy (xs : List α) :
    (distinctBy key xs).Pairwise fun a b => key a ≠ key b := by
  induction xs with
  | nil => exact .nil
  | cons a xs ih =>
    refine .cons (fun b hb => ?_) (ih.filter _)
    exact Ne.symm (by simpa using (List.mem_filter.mp hb).2)

/-- Only items of the list are kept. -/
theorem mem_of_mem_distinctBy {xs : List α} {a : α} (h : a ∈ distinctBy key xs) : a ∈ xs := by
  induction xs with
  | nil => cases h
  | cons first xs ih =>
    rcases List.mem_cons.mp h with rfl | h
    · exact List.mem_cons_self
    · exact List.mem_cons_of_mem _ (ih (List.mem_of_mem_filter h))

/-- An item with the key of each is kept. -/
theorem exists_mem_distinctBy {xs : List α} {a : α} (h : a ∈ xs) :
    ∃ b ∈ distinctBy key xs, key b = key a := by
  induction xs with
  | nil => cases h
  | cons first xs ih =>
    by_cases hfirst : key a = key first
    · exact ⟨first, List.mem_cons_self, hfirst.symm⟩
    · have hmem : a ∈ xs := by
        rcases List.mem_cons.mp h with rfl | h
        · exact absurd rfl hfirst
        · exact h
      obtain ⟨b, hb, hkey⟩ := ih hmem
      refine ⟨b, List.mem_cons_of_mem _ (List.mem_filter.mpr ⟨hb, ?_⟩), hkey⟩
      simpa [hkey] using hfirst

/-- More items at the end leave what is kept of the ones before them. -/
theorem prefix_distinctBy {xs ys : List α} (h : xs <+: ys) :
    distinctBy key xs <+: distinctBy key ys := by
  obtain ⟨more, rfl⟩ := h
  induction xs with
  | nil => exact List.nil_prefix
  | cons a xs ih => exact List.prefix_cons_inj a |>.mpr (ih.filter _)

/-! ### Order of appearance -/

/-- The items of `xs`, each once, in the order in which they first appear there. -/
structure FirstAppearances [DecidableEq α] (xs ys : List α) : Prop where
  /-- None is missing, and there are no others. -/
  mem_iff : ∀ a, a ∈ ys ↔ a ∈ xs
  /-- An item that stands before another one appears before it. -/
  order : ys.Pairwise fun a b => xs.idxOf a < xs.idxOf b

namespace FirstAppearances

variable [DecidableEq α] {xs ys : List α}

theorem nil : FirstAppearances ([] : List α) [] := ⟨fun _ => Iff.rfl, .nil⟩

theorem nodup (h : FirstAppearances xs ys) : ys.Nodup := by
  refine h.order.imp fun {a b} hlt heq => ?_
  rw [heq] at hlt
  exact Nat.lt_irrefl _ hlt

/-- One more item comes last, unless it has appeared before. -/
theorem concat (h : FirstAppearances xs ys) (x : α) :
    FirstAppearances (xs ++ [x]) (if x ∈ ys then ys else ys ++ [x]) := by
  -- What has appeared before has the place that it had.
  have hplace : ∀ a ∈ ys, (xs ++ [x]).idxOf a = xs.idxOf a :=
    fun a ha => List.idxOf_append_of_mem ((h.mem_iff a).mp ha)
  have horder : ys.Pairwise fun a b => (xs ++ [x]).idxOf a < (xs ++ [x]).idxOf b := by
    refine h.order.imp_of_mem fun ha hb hlt => ?_
    rwa [hplace _ ha, hplace _ hb]
  by_cases hx : x ∈ ys
  · rw [if_pos hx]
    refine ⟨fun a => ?_, horder⟩
    rw [List.mem_append, List.mem_singleton, h.mem_iff]
    refine ⟨.inl, ?_⟩
    rintro (ha | rfl)
    · exact ha
    · exact (h.mem_iff a).mp hx
  · rw [if_neg hx]
    refine ⟨fun a => ?_, List.pairwise_append.mpr ⟨horder, List.pairwise_singleton _ _, ?_⟩⟩
    · rw [List.mem_append, List.mem_append, h.mem_iff]
    · intro a ha b hb
      obtain rfl := List.mem_singleton.mp hb
      have hnew : b ∉ xs := fun hmem => hx ((h.mem_iff b).mpr hmem)
      rw [hplace a ha, List.idxOf_append_of_notMem hnew]
      exact Nat.lt_add_right _ (List.idxOf_lt_length_of_mem ((h.mem_iff a).mp ha))

end FirstAppearances

end Handoff
