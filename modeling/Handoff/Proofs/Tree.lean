import Handoff.Tree
import Mathlib.Data.List.Basic

/-!
# Induction on trees and the visits of a tree

A property of all trees follows from what holds of a tree whose subtrees have
it. What is visited does not depend on the depth that the root is taken to be
at, the visits of a subtree are among those of the tree, and the values of a
forest are those of its visits. A tree has as many nodes as it has visits.

What is visited without the depths is the list of subtrees. A search gives the
first subtree in this list that has the property (`Forest.find?_eq`). Trees that
change places with their siblings are visited in another order, but the values
that are visited stay the same (`Forest.Rearranged.perm_values`).
-/

namespace Handoff

theorem findSome?_congr {α β : Type} {f g : α → Option β} {xs : List α}
    (h : ∀ x ∈ xs, f x = g x) : xs.findSome? f = xs.findSome? g := by
  induction xs with
  | nil => rfl
  | cons x xs ih =>
    obtain ⟨hx, hxs⟩ := List.forall_mem_cons.mp h
    rw [List.findSome?_cons, List.findSome?_cons, hx, ih hxs]

namespace Tree

variable {α : Type}

/-- Induction on the subtrees of a tree. -/
@[elab_as_elim]
theorem children_induction {P : Tree α → Prop}
    (node : ∀ value children, (∀ t ∈ children, P t) → P ⟨value, children⟩) (t : Tree α) : P t :=
  @Tree.rec α P (fun ts => ∀ t ∈ ts, P t) node (by simp)
    (fun _ _ ht h => List.forall_mem_cons.mpr ⟨ht, h⟩) t

/-! ### Visits -/

theorem walkAllFrom_eq_flatMap (depth : Nat) (ts : List (Tree α)) :
    walkAllFrom depth ts = ts.flatMap (walkFrom depth) := by
  induction ts with
  | nil => rfl
  | cons t ts ih => simp [walkAllFrom, ih]

/-- What is visited does not depend on the depth of the root. -/
theorem map_fst_walkFrom (d e : Nat) (t : Tree α) :
    (t.walkFrom d).map Prod.fst = (t.walkFrom e).map Prod.fst := by
  induction t using children_induction generalizing d e with
  | node value children ih =>
    simp only [walkFrom, walkAllFrom_eq_flatMap, List.map_cons, List.map_flatMap]
    congr 1
    exact List.flatMap_congr fun t ht => ih t ht (d + 1) (e + 1)

theorem self_mem_walkFrom (depth : Nat) (t : Tree α) : (t, depth) ∈ t.walkFrom depth := by
  cases t
  exact List.mem_cons_self

/-- What is visited in a child is visited in the tree. -/
theorem mem_walkFrom_of_mem_children {depth : Nat} {s t : Tree α} (h : s ∈ t.children)
    {visit : Tree α × Nat} (hvisit : visit ∈ s.walkFrom (depth + 1)) : visit ∈ t.walkFrom depth := by
  cases t with
  | mk value children =>
    rw [walkFrom, walkAllFrom_eq_flatMap]
    exact List.mem_cons_of_mem _ (List.mem_flatMap.mpr ⟨s, h, hvisit⟩)

theorem length_walkAllFrom {depth : Nat} {ts : List (Tree α)}
    (h : ∀ t ∈ ts, (t.walkFrom depth).length = t.count) :
    (walkAllFrom depth ts).length = countAll ts := by
  induction ts with
  | nil => rfl
  | cons t ts ih =>
    obtain ⟨ht, hts⟩ := List.forall_mem_cons.mp h
    rw [walkAllFrom, List.length_append, ht, ih hts, countAll]

/-- Every node is visited once. -/
theorem length_walkFrom (depth : Nat) (t : Tree α) : (t.walkFrom depth).length = t.count := by
  induction t using children_induction generalizing depth with
  | node value children ih =>
    have hchildren := length_walkAllFrom fun t ht => ih t ht (depth + 1)
    rw [walkFrom, count, List.length_cons, hchildren, Nat.add_comm]

/-! ### Values -/

theorem valuesAll_eq_flatMap (ts : List (Tree α)) : valuesAll ts = ts.flatMap values := by
  induction ts with
  | nil => rfl
  | cons t ts ih => simp [valuesAll, ih]

theorem values_eq_map_walkFrom (depth : Nat) (t : Tree α) :
    t.values = (t.walkFrom depth).map fun visit => visit.1.value := by
  induction t using children_induction generalizing depth with
  | node value children ih =>
    simp only [values, walkFrom, valuesAll_eq_flatMap, walkAllFrom_eq_flatMap, List.map_cons,
      List.map_flatMap]
    congr 1
    exact List.flatMap_congr fun t ht => ih t ht (depth + 1)

/-! ### Subtrees -/

/-- The subtrees of a tree in visiting order, the tree itself first. -/
def subtrees (t : Tree α) : List (Tree α) := t.walk.map Prod.fst

theorem subtrees_node (value : α) (children : List (Tree α)) :
    subtrees ⟨value, children⟩ = ⟨value, children⟩ :: children.flatMap subtrees := by
  simp only [subtrees, walk, walkFrom, walkAllFrom_eq_flatMap, List.map_cons, List.map_flatMap]
  congr 1
  exact List.flatMap_congr fun t _ => map_fst_walkFrom _ _ t

/-- What holds of every visit of a tree holds of the root and of every visit of its subtrees. -/
theorem forall_walk_iff (p : Tree α → Prop) (value : α) (children : List (Tree α)) :
    (∀ visit ∈ walk ⟨value, children⟩, p visit.1)
      ↔ p ⟨value, children⟩ ∧ ∀ t ∈ children, ∀ visit ∈ t.walk, p visit.1 := by
  have hsubtrees : ∀ t : Tree α, (∀ visit ∈ t.walk, p visit.1) ↔ ∀ s ∈ t.subtrees, p s :=
    fun _ => List.forall_mem_map.symm
  simp only [hsubtrees, subtrees_node, List.forall_mem_cons, List.forall_mem_flatMap]

theorem self_mem_subtrees (t : Tree α) : t ∈ t.subtrees :=
  List.mem_map_of_mem (self_mem_walkFrom 0 t)

theorem mem_subtrees_of_mem_children {s t : Tree α} (h : s ∈ t.children) : s ∈ t.subtrees :=
  List.mem_map_of_mem (mem_walkFrom_of_mem_children h (self_mem_walkFrom 1 s))

/-- What is in a subtree is in the tree. -/
theorem mem_subtrees_trans {r s t : Tree α} (hr : r ∈ s.subtrees) (hs : s ∈ t.subtrees) :
    r ∈ t.subtrees := by
  induction t using children_induction with
  | node value children ih =>
    rw [subtrees_node, List.mem_cons, List.mem_flatMap] at hs
    rcases hs with rfl | ⟨t, ht, hs⟩
    · exact hr
    · rw [subtrees_node]
      exact List.mem_cons_of_mem _ (List.mem_flatMap.mpr ⟨t, ht, ih t ht hs⟩)

theorem values_eq_map_subtrees (t : Tree α) : t.values = t.subtrees.map value := by
  rw [values_eq_map_walkFrom 0, subtrees, List.map_map]
  rfl

/-! ### Searching -/

theorem findIn?_eq_findSome? (p : α → Bool) (ts : List (Tree α)) :
    findIn? p ts = ts.findSome? (find? p) := by
  induction ts with
  | nil => rfl
  | cons t ts ih =>
    rw [findIn?, ih, List.findSome?_cons]
    cases find? p t <;> rfl

/-- A search gives the first subtree whose root has the property. -/
theorem find?_eq (p : α → Bool) (t : Tree α) :
    t.find? p = t.subtrees.find? fun s => p s.value := by
  induction t using children_induction with
  | node value children ih =>
    rw [find?, subtrees_node, List.find?_cons, findIn?_eq_findSome?, List.find?_flatMap]
    cases p value with
    | true => rfl
    | false => exact findSome?_congr ih

/-! ### Reshaping -/

theorem mapAll_eq_map {β : Type} (f : α → β) (ts : List (Tree α)) : mapAll f ts = ts.map (map f) := by
  induction ts with
  | nil => rfl
  | cons t ts ih => simp [mapAll, ih]

/-- Nothing changes where every value is replaced by itself. -/
theorem map_id (t : Tree α) : t.map id = t := by
  induction t using children_induction with
  | node value children ih =>
    rw [map, mapAll_eq_map, List.map_congr_left ih, List.map_id']
    rfl

theorem cutAll_eq_map (stop : α → Bool) (ts : List (Tree α)) : cutAll stop ts = ts.map (cut stop) := by
  induction ts with
  | nil => rfl
  | cons t ts ih => simp [cutAll, ih]

theorem truncateAll_eq_map (depth : Nat) (ts : List (Tree α)) :
    truncateAll depth ts = ts.map (truncate depth) := by
  induction ts with
  | nil => rfl
  | cons t ts ih => simp [truncateAll, ih]

end Tree

namespace Forest

variable {α : Type}

/-- The subtrees of a forest in visiting order. -/
def subtrees (ts : Forest α) : List (Tree α) := ts.flatMap Tree.subtrees

theorem subtrees_eq_map_walk (ts : Forest α) : ts.subtrees = ts.walk.map Prod.fst := by
  rw [subtrees, walk, Tree.walkAllFrom_eq_flatMap, List.map_flatMap]
  rfl

/-- A search gives the first subtree whose root has the property. -/
theorem find?_eq (p : α → Bool) (ts : Forest α) :
    ts.find? p = ts.subtrees.find? fun s => p s.value := by
  rw [find?, Tree.findIn?_eq_findSome?, subtrees, List.find?_flatMap]
  exact findSome?_congr fun t _ => Tree.find?_eq p t

/-- What is in a subtree is in the forest. -/
theorem mem_subtrees_trans {ts : Forest α} {r s : Tree α} (hr : r ∈ s.subtrees)
    (hs : s ∈ ts.subtrees) : r ∈ ts.subtrees := by
  obtain ⟨t, ht, hs⟩ := List.mem_flatMap.mp hs
  exact List.mem_flatMap.mpr ⟨t, ht, Tree.mem_subtrees_trans hr hs⟩

theorem values_eq_map_subtrees (ts : Forest α) : ts.values = ts.subtrees.map Tree.value := by
  rw [values, Tree.valuesAll_eq_flatMap, subtrees, List.map_flatMap]
  exact List.flatMap_congr fun t _ => t.values_eq_map_subtrees

/-- The values of a forest are those of its visits. -/
theorem values_eq_map_walk (ts : Forest α) :
    ts.values = ts.walk.map fun visit => visit.1.value := by
  rw [values, walk, Tree.valuesAll_eq_flatMap, Tree.walkAllFrom_eq_flatMap, List.map_flatMap]
  exact List.flatMap_congr fun t _ => Tree.values_eq_map_walkFrom 0 t

/-- The values in a subtree are values of the forest. -/
theorem mem_values_of_mem_subtrees {ts : Forest α} {t : Tree α} (ht : t ∈ ts.subtrees) {a : α}
    (ha : a ∈ t.values) : a ∈ ts.values := by
  rw [Tree.values_eq_map_subtrees] at ha
  obtain ⟨s, hs, rfl⟩ := List.mem_map.mp ha
  rw [values_eq_map_subtrees]
  exact List.mem_map_of_mem (mem_subtrees_trans hs ht)

/-! ### Order of siblings -/

/-- The forests differ in the order of their roots and of the trees below each node at most. -/
inductive Rearranged : Forest α → Forest α → Prop where
  /-- Nothing is to be ordered. -/
  | nil : Rearranged [] []
  /-- What is below the first root and what is beside it are rearranged. -/
  | cons (value : α) {children children' ts ts' : List (Tree α)} (hbelow : Rearranged children children')
      (hbeside : Rearranged ts ts') : Rearranged (⟨value, children⟩ :: ts) (⟨value, children'⟩ :: ts')
  /-- The first two roots change places. -/
  | swap (s t : Tree α) {ts ts' : List (Tree α)} (hbeside : Rearranged ts ts') :
      Rearranged (s :: t :: ts) (t :: s :: ts')
  /-- One order after the other. -/
  | trans {ts us vs : Forest α} (hfirst : Rearranged ts us) (hsecond : Rearranged us vs) :
      Rearranged ts vs

namespace Rearranged

theorem refl_of_children {ts : Forest α} (h : ∀ t ∈ ts, Rearranged t.children t.children) :
    Rearranged ts ts := by
  induction ts with
  | nil => exact .nil
  | cons t ts ih =>
    obtain ⟨value, children⟩ := t
    obtain ⟨hbelow, hbeside⟩ := List.forall_mem_cons.mp h
    exact .cons value hbelow (ih hbeside)

theorem refl (ts : Forest α) : Rearranged ts ts := by
  have hbelow (t : Tree α) : Rearranged t.children t.children := by
    induction t using Tree.children_induction with
    | node value children ih => exact refl_of_children ih
  exact refl_of_children fun t _ => hbelow t

/-- The roots may stand in any order. -/
theorem of_perm {ts us : Forest α} (h : ts.Perm us) : Rearranged ts us := by
  induction h with
  | nil => exact .nil
  | cons t _ ih =>
    obtain ⟨value, children⟩ := t
    exact .cons value (refl children) ih
  | swap s t ts => exact .swap t s (refl ts)
  | trans _ _ ih ih' => exact .trans ih ih'

/-- The values of rearranged forests are the same, each as often. -/
theorem perm_values {ts us : Forest α} (h : Rearranged ts us) : ts.values.Perm us.values := by
  simp only [values, Tree.valuesAll_eq_flatMap]
  induction h with
  | nil => exact .nil
  | cons value _ _ ihbelow ihbeside =>
    simp only [List.flatMap_cons, Tree.values, Tree.valuesAll_eq_flatMap, List.cons_append]
    exact (ihbelow.append ihbeside).cons value
  | swap s t _ ih =>
    simp only [List.flatMap_cons, ← List.append_assoc]
    exact List.perm_append_comm.append ih
  | trans _ _ ih ih' => exact ih.trans ih'

end Rearranged

end Forest

end Handoff
