import Handoff.Json.Nested
import Handoff.Proofs.Json.Record
import Handoff.Proofs.Tree

/-!
# Trees written and read back

A tree is read by taking a value apart into the fields of the root and the values
of the subtrees (`ofJson?_eq_some_iff`), and what holds of all trees that are read
follows by induction on the tree. So a tree is read back if its records are
(`ofJson?_toJson`), its numbers are finite if those of its records are
(`readsFinite_ofJson?`), and two readers of the records that agree on something
agree on it at every place of the tree (`map_ofJson?`).
-/

namespace Handoff.Tree

open Json

variable {α β γ : Type} {names : List String} {read : Fields → Option α} {write : α → Fields}

/-! ### Taking a value apart -/

/-- The values of the subtrees, from what stands under `children`. -/
def childItems? : Option Json → Option (List Json)
  | none => some []
  | some (.array items) => some items
  | some _ => none

/-- The fields of the root and the values of the subtrees. -/
def parts? (names : List String) : Json → Option (Fields × List Json)
  | .object fields => (childItems? (fields.lookup "children")).map (fields, ·)
  | .array items =>
    if items.length ≤ names.length + 1 then
      (childItems? items[names.length]?).map (names.zip items, ·)
    else none
  | _ => none

theorem allOfJson?_eq_mapM (items : List Json) :
    allOfJson? names read items = items.mapM (ofJson? names read) := by
  induction items with
  | nil => rfl
  | cons item more ih =>
    rw [allOfJson?, ih, List.mapM_cons]
    cases ofJson? names read item with
    | none => rfl
    | some t => cases more.mapM (ofJson? names read) <;> rfl

theorem subtrees?_eq (v : Json) :
    subtrees? names read v = (childItems? (some v)).bind (·.mapM (ofJson? names read)) := by
  cases v with
  | array items => rw [subtrees?, allOfJson?_eq_mapM, childItems?, Option.bind_some]
  | _ => rfl

theorem childrenIn?_eq (fields : Fields) : childrenIn? names read fields
    = (childItems? (fields.lookup "children")).bind (·.mapM (ofJson? names read)) := by
  induction fields with
  | nil => rfl
  | cons field more ih =>
    obtain ⟨name, value⟩ := field
    rw [childrenIn?, List.lookup_cons, subtrees?_eq, ih, BEq.comm]
    cases "children" == name <;> rfl

theorem childrenAfter?_eq (count : Nat) (items : List Json) : childrenAfter? names read count items
    = (childItems? items[count]?).bind (·.mapM (ofJson? names read)) := by
  induction items generalizing count with
  | nil => cases count <;> rfl
  | cons item more ih =>
    cases count with
    | zero => rw [childrenAfter?, subtrees?_eq, List.getElem?_cons_zero]
    | succ count => rw [childrenAfter?, ih, List.getElem?_cons_succ]

/-- A tree is read when its root is read from the fields and its subtrees from their values. -/
theorem ofJson?_eq_some_iff {v : Json} {t : Tree α} : ofJson? names read v = some t
    ↔ ∃ fields items, parts? names v = some (fields, items) ∧ read fields = some t.value
      ∧ items.mapM (ofJson? names read) = some t.children := by
  obtain ⟨value, children⟩ := t
  cases v with
  | object fields =>
    rw [ofJson?, parts?, childrenIn?_eq]
    simp only [Option.bind_eq_some_iff, Option.map_eq_some_iff, Tree.mk.injEq, Prod.mk.injEq]
    constructor
    · rintro ⟨_, hread, _, ⟨items, hitems, hchildren⟩, rfl, rfl⟩
      exact ⟨fields, items, ⟨items, hitems, rfl, rfl⟩, hread, hchildren⟩
    · rintro ⟨_, _, ⟨items, hitems, rfl, rfl⟩, hread, hchildren⟩
      exact ⟨value, hread, children, ⟨items, hitems, hchildren⟩, rfl, rfl⟩
  | array values =>
    rw [ofJson?, parts?, childrenAfter?_eq]
    split
    · simp only [Option.bind_eq_some_iff, Option.map_eq_some_iff, Tree.mk.injEq, Prod.mk.injEq]
      constructor
      · rintro ⟨_, hread, _, ⟨items, hitems, hchildren⟩, rfl, rfl⟩
        exact ⟨_, items, ⟨items, hitems, rfl, rfl⟩, hread, hchildren⟩
      · rintro ⟨_, _, ⟨items, hitems, rfl, rfl⟩, hread, hchildren⟩
        exact ⟨value, hread, children, ⟨items, hitems, hchildren⟩, rfl, rfl⟩
    · simp
  | _ => simp [ofJson?, parts?]

/-! ### Reading back -/

theorem allToJson_eq_map (ts : List (Tree α)) : allToJson write ts = ts.map (toJson write) := by
  induction ts with
  | nil => rfl
  | cons t ts ih => rw [allToJson, ih, List.map_cons]

/-- The subtrees are one field more, which is left out where there are none. -/
theorem toJson_node (value : α) (children : List (Tree α)) : toJson write ⟨value, children⟩
    = .object (write value ++ ifAny "children" (toJson write) children) := by
  cases children with
  | nil => rw [toJson, ifAny, List.append_nil]
  | cons t ts => rw [toJson, allToJson_eq_map, ifAny]

/-- A tree is read back as far as its records are. -/
theorem ofJson?_toJson {read : Fields → Option β} {f : α → β} {t : Tree α}
    (hname : ∀ a, (write a).lookup "children" = none)
    (hread : ∀ a ∈ t.values, ∀ children : List (Tree α),
      read (write a ++ ifAny "children" (toJson write) children) = some (f a)) :
    ofJson? names read (toJson write t) = some (t.map f) := by
  induction t using children_induction with
  | node value children ih =>
    rw [values, valuesAll_eq_flatMap, List.forall_mem_cons, List.forall_mem_flatMap] at hread
    have hchildren : (children.map (toJson write)).mapM (ofJson? names read)
        = some (children.map (map f)) := by
      rw [mapM_eq_some_iff_forall₂, List.forall₂_map_left_iff, List.forall₂_map_right_iff,
        List.forall₂_same]
      exact fun t ht => ih t ht (hread.2 t ht)
    have hitems : childItems? ((write value ++ ifAny "children" (toJson write) children).lookup
        "children") = some (children.map (toJson write)) := by
      rw [List.lookup_append, hname, Option.none_or, lookup_ifAny, if_pos (beq_self_eq_true _)]
      split
      · next hnil =>
        rw [hnil]
        rfl
      · rfl
    rw [toJson_node, map, mapAll_eq_map]
    refine ofJson?_eq_some_iff.mpr ⟨_, _, ?_, hread.1 children, hchildren⟩
    rw [parts?, hitems, Option.map_some]

theorem roundTrips_tree {read : Fields → Option α} {t : Tree α}
    (hname : ∀ a, (write a).lookup "children" = none)
    (hread : ∀ a ∈ t.values, ∀ children : List (Tree α),
      read (write a ++ ifAny "children" (toJson write) children) = some a) :
    RoundTrips (ofJson? names read) (toJson write) t := by
  refine ⟨?_, ?_⟩
  · rw [ofJson?_toJson (f := id) hname hread, map_id]
  · obtain ⟨value, children⟩ := t
    rw [toJson_node]
    exact Json.noConfusion

/-! ### What is read -/

theorem inRange_parts? {v : Json} {fields : Fields} {items : List Json} (hv : InRange v)
    (h : parts? names v = some (fields, items)) :
    (∀ f ∈ fields, InRange f.2) ∧ ∀ item ∈ items, InRange item := by
  have hitems : ∀ {child : Option Json} {items}, (∀ v ∈ child, InRange v) →
      childItems? child = some items → ∀ item ∈ items, InRange item := by
    intro child items hchild h
    unfold childItems? at h
    split at h
    · cases h
      simp
    · cases h
      exact inRange_array_iff.mp (hchild _ rfl)
    · cases h
  cases hv with
  | object hfields =>
    obtain ⟨_, hchild, hparts⟩ := Option.map_eq_some_iff.mp h
    cases hparts
    exact ⟨hfields, hitems (fun v hv => inRange_of_lookup hfields hv) hchild⟩
  | array hvalues =>
    rw [parts?] at h
    split at h
    · obtain ⟨_, hchild, hparts⟩ := Option.map_eq_some_iff.mp h
      cases hparts
      exact ⟨fun f hf => hvalues f.2 (List.of_mem_zip hf).2,
        hitems (fun v hv => hvalues v (List.mem_of_getElem? hv)) hchild⟩
    · cases h
  | _ => cases h

/-- The numbers of a tree are finite where those of its records are. -/
theorem readsFinite_ofJson? {numbers : α → List Binary64}
    (hread : ∀ fields a, (∀ f ∈ fields, InRange f.2) → read fields = some a → AllFinite (numbers a)) :
    ReadsFinite (ofJson? names read) fun t => t.values.flatMap numbers := by
  intro v t hv h
  induction t using children_induction generalizing v with
  | node value children ih =>
    obtain ⟨fields, items, hparts, hvalue, hchildren⟩ := ofJson?_eq_some_iff.mp h
    obtain ⟨hfields, hitems⟩ := inRange_parts? hv hparts
    have hall : ∀ t ∈ children, t ∈ children → AllFinite (t.values.flatMap numbers) :=
      forall_mem_of_mapM_eq_some hchildren fun item hitem t ht hmem =>
        ih t hmem item (hitems item hitem) ht
    show AllFinite ((value :: valuesAll children).flatMap numbers)
    rw [valuesAll_eq_flatMap, List.flatMap_cons, allFinite_append, List.flatMap_assoc]
    exact ⟨hread fields value hfields hvalue, allFinite_flatMap.mpr fun t ht => hall t ht ht⟩

/-- Readers of records that agree on something agree on it all over the tree. -/
theorem map_ofJson? {read' : Fields → Option β} {f : α → γ} {g : β → γ}
    (hread : ∀ fields a, read fields = some a → ∃ b, read' fields = some b ∧ f a = g b)
    {v : Json} {t : Tree α} (h : ofJson? names read v = some t) :
    ∃ u, ofJson? names read' v = some u ∧ t.map f = u.map g := by
  induction t using children_induction generalizing v with
  | node value children ih =>
    obtain ⟨fields, items, hparts, hvalue, hchildren⟩ := ofJson?_eq_some_iff.mp h
    obtain ⟨b, hb, hroot⟩ := hread fields value hvalue
    obtain ⟨us, hus, hbelow⟩ := exists_mapM_eq_some hchildren fun item t ht => ih t ht
    refine ⟨⟨b, us⟩, ofJson?_eq_some_iff.mpr ⟨fields, items, hparts, hb, hus⟩, ?_⟩
    rw [map, map, mapAll_eq_map, mapAll_eq_map, hroot, hbelow]

end Handoff.Tree
