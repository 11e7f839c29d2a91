import Handoff.Json.Basic

/-!
# Induction on JSON values

A property of all values follows from what holds of lists and objects whose
parts have it. The functions on values come with companions on lists of values,
and the depth of a value is one of them.
-/

namespace Handoff.Json

/-- Induction on the parts of a value. -/
@[elab_as_elim]
theorem parts_induction {P : Json → Prop} (null : P .null) (bool : ∀ b, P (.bool b))
    (integer : ∀ n, P (.integer n)) (float : ∀ x, P (.float x)) (string : ∀ s, P (.string s))
    (array : ∀ items, (∀ v ∈ items, P v) → P (.array items))
    (object : ∀ fields : List (String × Json), (∀ f ∈ fields, P f.2) → P (.object fields))
    (v : Json) : P v :=
  @Json.rec P (fun items => ∀ v ∈ items, P v) (fun fields => ∀ f ∈ fields, P f.2) (fun f => P f.2)
    null bool integer float string array object
    (by simp) (fun _ _ hv h => List.forall_mem_cons.mpr ⟨hv, h⟩)
    (by simp) (fun _ _ hf h => List.forall_mem_cons.mpr ⟨hf, h⟩)
    (fun _ _ h => h) v

mutual
/-- How deep lists and objects are nested in a value. -/
def depth : Json → Nat
  | .array items => depthOfItems items + 1
  | .object fields => depthOfFields fields + 1
  | _ => 0
/-- The depth of the deepest item. -/
def depthOfItems : List Json → Nat
  | [] => 0
  | item :: more => max (depth item) (depthOfItems more)
/-- The depth of the deepest field. -/
def depthOfFields : List (String × Json) → Nat
  | [] => 0
  | (_, value) :: more => max (depth value) (depthOfFields more)
end

theorem depth_le_of_mem_items {v : Json} {items : List Json} (h : v ∈ items) :
    v.depth ≤ depthOfItems items := by
  induction items with
  | nil => simp at h
  | cons item more ih =>
    simp only [depthOfItems]
    rcases List.mem_cons.mp h with rfl | h
    · exact Nat.le_max_left _ _
    · exact Nat.le_trans (ih h) (Nat.le_max_right _ _)

theorem depth_le_of_mem_fields {f : String × Json} {fields : List (String × Json)}
    (h : f ∈ fields) : f.2.depth ≤ depthOfFields fields := by
  induction fields with
  | nil => simp at h
  | cons field more ih =>
    simp only [depthOfFields]
    rcases List.mem_cons.mp h with rfl | h
    · exact Nat.le_max_left _ _
    · exact Nat.le_trans (ih h) (Nat.le_max_right _ _)

theorem depthOfItems_le {items : List Json} {n : Nat} (h : ∀ v ∈ items, v.depth ≤ n) :
    depthOfItems items ≤ n := by
  induction items with
  | nil => exact Nat.zero_le n
  | cons item more ih =>
    exact Nat.max_le.mpr ⟨h item (by simp), ih fun v hv => h v (List.mem_cons_of_mem _ hv)⟩

theorem depthOfFields_le {fields : List (String × Json)} {n : Nat}
    (h : ∀ f ∈ fields, f.2.depth ≤ n) : depthOfFields fields ≤ n := by
  induction fields with
  | nil => exact Nat.zero_le n
  | cons field more ih =>
    exact Nat.max_le.mpr ⟨h field (by simp), ih fun f hf => h f (List.mem_cons_of_mem _ hf)⟩

end Handoff.Json
