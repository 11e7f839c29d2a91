import Handoff.Proofs.Tree

/-!
# What is seen on a walk

On a walk each value is seen with its depth. Two trees on which the same is seen are
the same, since a visit says by its depth where the subtrees before it end
(`Tree.visits_injective`). So a tree that is cut below a depth is told by what is
seen on it: what is seen on the whole tree down to the depth, in the same order
(`Tree.visits_truncate`).
-/

namespace Handoff

namespace Tree

variable {α : Type}

/-- The values in visiting order, each with its depth. The root is at `depth`. -/
def visitsFrom (depth : Nat) (t : Tree α) : List (α × Nat) :=
  (t.walkFrom depth).map fun visit => (visit.1.value, visit.2)

/-- The values in visiting order, each with its depth below the root. -/
def visits (t : Tree α) : List (α × Nat) := t.visitsFrom 0

theorem visitsFrom_node (depth : Nat) (value : α) (children : List (Tree α)) :
    visitsFrom depth ⟨value, children⟩
      = (value, depth) :: children.flatMap (visitsFrom (depth + 1)) := by
  simp only [visitsFrom, walkFrom, walkAllFrom_eq_flatMap, List.map_cons, List.map_flatMap]
  rfl

/-- Nothing is seen above the root. -/
theorem le_of_mem_visitsFrom {depth : Nat} {t : Tree α} :
    ∀ visit ∈ t.visitsFrom depth, depth ≤ visit.2 := by
  induction t using children_induction generalizing depth with
  | node value children ih =>
    rw [visitsFrom_node, List.forall_mem_cons, List.forall_mem_flatMap]
    exact ⟨Nat.le_refl depth, fun t ht visit hvisit => Nat.le_of_succ_le (ih t ht visit hvisit)⟩

/-! ### Trees told by their walks -/

/-- What comes next on a walk, if anything does, is seen at the depth or above it. -/
def ReturnsTo (depth : Nat) (rest : List (α × Nat)) : Prop := ∀ visit ∈ rest.head?, visit.2 ≤ depth

/-- After a tree comes its sibling, or what comes after the siblings. -/
theorem ReturnsTo.append_siblings {depth : Nat} {rest : List (α × Nat)} (h : ReturnsTo depth rest)
    (ts : List (Tree α)) :
    ReturnsTo (depth + 1) (ts.flatMap (visitsFrom (depth + 1)) ++ rest) := by
  cases ts with
  | nil => exact fun visit hvisit => Nat.le_succ_of_le (h visit hvisit)
  | cons t ts =>
    obtain ⟨value, children⟩ := t
    simp [ReturnsTo, visitsFrom_node]

/-- Where a walk returns to the depth, no tree below it comes next. -/
theorem not_returnsTo_visitsFrom (depth : Nat) (t : Tree α) (rest : List (α × Nat)) :
    ¬ ReturnsTo depth (t.visitsFrom (depth + 1) ++ rest) := by
  obtain ⟨value, children⟩ := t
  simp [ReturnsTo, visitsFrom_node]

/-- The siblings on a walk are told from what comes after them, if each tree is. -/
theorem eq_of_flatMap_visitsFrom {depth : Nat} {ts us : List (Tree α)} {rest more : List (α × Nat)}
    (htrees : ∀ t ∈ ts, ∀ (u : Tree α) (rest more : List (α × Nat)), ReturnsTo (depth + 1) rest →
      ReturnsTo (depth + 1) more →
      t.visitsFrom (depth + 1) ++ rest = u.visitsFrom (depth + 1) ++ more → t = u ∧ rest = more)
    (hrest : ReturnsTo depth rest) (hmore : ReturnsTo depth more)
    (h : ts.flatMap (visitsFrom (depth + 1)) ++ rest = us.flatMap (visitsFrom (depth + 1)) ++ more) :
    ts = us ∧ rest = more := by
  induction ts generalizing us with
  | nil =>
    cases us with
    | nil => exact ⟨rfl, h⟩
    | cons u us =>
      rw [List.flatMap_cons, List.append_assoc, List.flatMap_nil, List.nil_append] at h
      rw [h] at hrest
      exact absurd hrest (not_returnsTo_visitsFrom depth u _)
  | cons t ts ih =>
    obtain ⟨ht, hts⟩ := List.forall_mem_cons.mp htrees
    cases us with
    | nil =>
      rw [List.flatMap_cons, List.append_assoc, List.flatMap_nil, List.nil_append] at h
      rw [← h] at hmore
      exact absurd hmore (not_returnsTo_visitsFrom depth t _)
    | cons u us =>
      simp only [List.flatMap_cons, List.append_assoc] at h
      obtain ⟨rfl, hsiblings⟩ := ht u _ _ (hrest.append_siblings ts) (hmore.append_siblings us) h
      obtain ⟨rfl, hafter⟩ := ih hts hsiblings
      exact ⟨rfl, hafter⟩

/-- A tree on a walk is told from what comes after it. -/
theorem eq_of_visitsFrom (t u : Tree α) (depth : Nat) (rest more : List (α × Nat))
    (hrest : ReturnsTo depth rest) (hmore : ReturnsTo depth more)
    (h : t.visitsFrom depth ++ rest = u.visitsFrom depth ++ more) : t = u ∧ rest = more := by
  induction t using children_induction generalizing u depth rest more with
  | node value children ih =>
    obtain ⟨other, others⟩ := u
    simp only [visitsFrom_node, List.cons_append, List.cons.injEq, Prod.mk.injEq, and_true] at h
    obtain ⟨rfl, hbelow⟩ := h
    obtain ⟨rfl, hafter⟩ :=
      eq_of_flatMap_visitsFrom (fun t ht u => ih t ht u (depth + 1)) hrest hmore hbelow
    exact ⟨rfl, hafter⟩

/-- A tree is told by what is seen on its walk. -/
theorem visits_injective : Function.Injective (@visits α) := by
  intro t u h
  have hends : ReturnsTo 0 ([] : List (α × Nat)) := by simp [ReturnsTo]
  exact (eq_of_visitsFrom t u 0 [] [] hends hends (congrArg (· ++ []) h)).1

/-! ### Cutting below a depth -/

/-- One level less is kept below the children than below the root. -/
theorem visitsFrom_truncate (depth start : Nat) (t : Tree α) :
    (t.truncate depth).visitsFrom start
      = (t.visitsFrom start).filter fun visit => visit.2 ≤ start + depth := by
  induction t using children_induction generalizing depth start with
  | node value children ih =>
    rw [visitsFrom_node start value children, List.filter_cons_of_pos (by simp), List.filter_flatMap]
    cases depth with
    | zero =>
      have hbelow : children.flatMap (fun t =>
          (t.visitsFrom (start + 1)).filter fun visit => visit.2 ≤ start + 0) = [] := by
        refine List.flatMap_eq_nil_iff.mpr fun t _ => ?_
        refine List.filter_eq_nil_iff.mpr fun visit hvisit => ?_
        have hdepth : start < visit.2 := le_of_mem_visitsFrom visit hvisit
        simpa using hdepth
      rw [truncate, visitsFrom_node, hbelow]
      rfl
    | succ below =>
      rw [truncate, visitsFrom_node, truncateAll_eq_map, List.flatMap_map]
      congr 1
      refine List.flatMap_congr fun t ht => ?_
      rw [ih t ht below (start + 1), Nat.add_right_comm, Nat.add_assoc]

/-- On a tree that is cut below a depth, everything down to the depth is seen as before. -/
theorem visits_truncate (depth : Nat) (t : Tree α) :
    (t.truncate depth).visits = t.visits.filter fun visit => visit.2 ≤ depth := by
  simp only [visits, visitsFrom_truncate, Nat.zero_add]

end Tree

end Handoff
