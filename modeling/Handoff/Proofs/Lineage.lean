import Handoff.Proofs.Tree

/-!
# What stands above a node

The places of a tree are its subtrees in visiting order, each with the values
that stand above it. There are as many of these as the subtree is deep
(`map_placesFrom`), and what stands above a tree stands above all of its places
(`subset_above`). So it can be said of a place whether one of its ancestors has a
property, without cutting the tree.
-/

namespace Handoff

/-- A subtree at its place in a tree. -/
structure Place (α : Type) where
  /-- The subtree. -/
  tree : Tree α
  /-- The values on the way up from it, its parent first and the root last. -/
  above : List α

namespace Tree

variable {α : Type}

mutual
/-- The places of a tree that stands below `above`, parents before children. -/
def placesFrom (above : List α) : Tree α → List (Place α)
  | ⟨value, children⟩ => ⟨⟨value, children⟩, above⟩ :: placesOfAllFrom (value :: above) children
/-- The places of one tree after the other, all below `above`. -/
def placesOfAllFrom (above : List α) : List (Tree α) → List (Place α)
  | [] => []
  | t :: ts => placesFrom above t ++ placesOfAllFrom above ts
end

/-- The places of a tree, parents before children, siblings in order. -/
def places (t : Tree α) : List (Place α) := t.placesFrom []

theorem placesOfAllFrom_eq_flatMap (above : List α) (ts : List (Tree α)) :
    placesOfAllFrom above ts = ts.flatMap (placesFrom above) := by
  induction ts with
  | nil => rfl
  | cons t ts ih => simp [placesOfAllFrom, ih]

/-- The places are the visits, and a node is as deep as there are values above it. -/
theorem map_placesFrom (above : List α) (t : Tree α) :
    (t.placesFrom above).map (fun p => (p.tree, p.above.length)) = t.walkFrom above.length := by
  induction t using children_induction generalizing above with
  | node value children ih =>
    simp only [placesFrom, walkFrom, placesOfAllFrom_eq_flatMap, walkAllFrom_eq_flatMap,
      List.map_cons, List.map_flatMap]
    congr 1
    exact List.flatMap_congr fun t ht => ih t ht (value :: above)

/-- The visits of a tree are its places, each as deep as there are values above it. -/
theorem walk_eq_map_places (t : Tree α) :
    t.walk = t.places.map fun p => (p.tree, p.above.length) :=
  (map_placesFrom [] t).symm

/-- What stands above a tree stands above all that is in it. -/
theorem subset_above {above : List α} {t : Tree α} {p : Place α} (h : p ∈ t.placesFrom above) :
    above ⊆ p.above := by
  induction t using children_induction generalizing above with
  | node value children ih =>
    rw [placesFrom, List.mem_cons, placesOfAllFrom_eq_flatMap, List.mem_flatMap] at h
    rcases h with rfl | ⟨t, ht, hp⟩
    · exact List.Subset.refl _
    · exact List.Subset.trans (List.subset_cons_self value above) (ih t ht hp)

/-- The places without what stands above them are the subtrees. -/
theorem map_tree_placesFrom (above : List α) (t : Tree α) :
    (t.placesFrom above).map Place.tree = t.subtrees := by
  have hwalk := congrArg (List.map Prod.fst) (map_placesFrom above t)
  rw [List.map_map, map_fst_walkFrom above.length 0] at hwalk
  exact hwalk

/-- A tree has its root at or above each of its places. -/
theorem value_mem_of_mem_placesFrom {above : List α} {t : Tree α} {p : Place α}
    (h : p ∈ t.placesFrom above) : t.value ∈ p.tree.value :: p.above := by
  cases t with
  | mk value children =>
    rw [placesFrom, List.mem_cons, placesOfAllFrom_eq_flatMap, List.mem_flatMap] at h
    rcases h with rfl | ⟨t, -, hp⟩
    · exact List.mem_cons_self
    · exact List.mem_cons_of_mem _ (subset_above hp List.mem_cons_self)

end Tree

end Handoff
