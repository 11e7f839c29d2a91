import Handoff.Proofs.Tree
import Handoff.Scene.Layer
import Mathlib.Data.List.Nodup
import Mathlib.Data.List.Perm.Lattice

/-!
# Where the nodes of a forest are

A node of a forest is told from the others by its address, since the same value may
be anywhere in the forest and as often as one likes. The addresses are listed along
the two recursions of a walk (`Forest.addresses`). In this order they increase
lexicographically (`Forest.pairwise_addresses`), which is why no node comes twice,
parents come before what is below them and siblings come in order. The nodes above a
node are the nonempty beginnings of its address, and their number is its depth on the
walk (`Forest.length_ancestors`).

So what is said of a walk is said of the forest itself, and a search by id is a search
on the walk (`Node.search_agrees_with_walk`).
-/

namespace Handoff

/-- The way to a node: its root by its place among the roots, then a child by its place among the
children, and so on down. -/
abbrev Address := List Nat

/-- The addresses of a list that an address leads through on the way to its end. -/
def ancestors (addresses : List Address) (a : Address) : List Address :=
  addresses.filter fun b => b <+: a ∧ b ≠ a

/-! ### Beginnings of an address -/

/-- The addresses after each step but the last. -/
def beginnings (a : Address) : List Address :=
  (List.range (a.length - 1)).map fun k => a.take (k + 1)

theorem length_take_add_one {a : Address} {k : Nat} (hk : k < a.length - 1) :
    (a.take (k + 1)).length = k + 1 := by
  rw [List.length_take]
  omega

theorem mem_beginnings_iff {a b : Address} : b ∈ beginnings a ↔ b ≠ [] ∧ b <+: a ∧ b ≠ a := by
  simp only [beginnings, List.mem_map, List.mem_range]
  constructor
  · rintro ⟨k, hk, rfl⟩
    have hlength := length_take_add_one hk
    refine ⟨List.ne_nil_of_length_eq_add_one hlength, List.take_prefix _ _, fun heq => ?_⟩
    rw [heq] at hlength
    omega
  · rintro ⟨hnil, hpre, hne⟩
    obtain ⟨i, rest, rfl⟩ := List.exists_cons_of_ne_nil hnil
    have hle := hpre.length_le
    have hlt : (i :: rest).length ≠ a.length := fun heq => hne (hpre.eq_of_length heq)
    rw [List.length_cons] at hle hlt
    exact ⟨rest.length, by omega, (List.prefix_iff_eq_take.mp hpre).symm⟩

/-- Beginnings differ in their lengths. -/
theorem nodup_beginnings (a : Address) : (beginnings a).Nodup := by
  refine List.nodup_range.map_on fun k hk l hl heq => ?_
  have hlength := congrArg List.length heq
  rw [length_take_add_one (List.mem_range.mp hk), length_take_add_one (List.mem_range.mp hl)]
    at hlength
  exact Nat.succ.inj hlength

/-! ### Addresses in order -/

/-- Of two addresses the smaller one comes first in a list where addresses increase. -/
theorem pair_sublist_of_lt {addresses : List Address} (h : addresses.Pairwise (· < ·))
    {a b : Address} (ha : a ∈ addresses) (hb : b ∈ addresses) (hlt : a < b) : [a, b].Sublist addresses := by
  induction addresses with
  | nil => exact absurd ha List.not_mem_nil
  | cons c rest ih =>
    obtain ⟨hfirst, hrest⟩ := List.pairwise_cons.mp h
    rcases List.mem_cons.mp ha with rfl | hafter
    · have hne : b ≠ a := fun heq => List.lt_irrefl a (heq ▸ hlt)
      have hrest : b ∈ rest := List.mem_of_ne_of_mem hne hb
      exact (List.singleton_sublist.mpr hrest).cons_cons a
    · have hne : b ≠ c := fun heq => List.lt_asymm (hfirst a hafter) (heq ▸ hlt)
      exact (ih hrest hafter (List.mem_of_ne_of_mem hne hb)).cons c

namespace Tree

variable {α : Type}

/-! ### Addresses below a root -/

/-- The subtree at the end of a way down from the root, if the way stays inside the tree. -/
def at? : Tree α → Address → Option (Tree α)
  | t, [] => some t
  | t, i :: rest => t.children[i]?.bind (at? · rest)

/-- A way may be gone in two parts. -/
theorem at?_append (t : Tree α) (a b : Address) :
    t.at? (a ++ b) = (t.at? a).bind (at? · b) := by
  induction a generalizing t with
  | nil => rfl
  | cons i rest ih =>
    rw [List.cons_append, at?, at?]
    cases t.children[i]? with
    | none => rfl
    | some child => exact ih child

mutual
/-- The addresses below a root, in visiting order. That of the root is empty. -/
def addresses : Tree α → List Address
  | ⟨_, children⟩ => [] :: addressesFrom 0 children
/-- The addresses in one tree after the other, where the first tree has the place `i`. -/
def addressesFrom (i : Nat) : List (Tree α) → List Address
  | [] => []
  | t :: ts => (addresses t).map (i :: ·) ++ addressesFrom (i + 1) ts
end

theorem mem_addressesFrom_iff {i : Nat} {ts : List (Tree α)} {a : Address} :
    a ∈ addressesFrom i ts
      ↔ ∃ k rest, a = (i + k) :: rest ∧ ∃ t, ts[k]? = some t ∧ rest ∈ t.addresses := by
  induction ts generalizing i with
  | nil => simp [addressesFrom]
  | cons t ts ih =>
    rw [addressesFrom, List.mem_append, List.mem_map, ih]
    constructor
    · rintro (⟨rest, hrest, rfl⟩ | ⟨k, rest, rfl, u, hu, hrest⟩)
      · exact ⟨0, rest, rfl, t, rfl, hrest⟩
      · exact ⟨k + 1, rest, by rw [Nat.add_right_comm, Nat.add_assoc], u, hu, hrest⟩
    · rintro ⟨k, rest, rfl, u, hu, hrest⟩
      cases k with
      | zero =>
        obtain rfl : t = u := Option.some.inj hu
        exact Or.inl ⟨rest, hrest, rfl⟩
      | succ k => exact Or.inr ⟨k, rest, by rw [Nat.add_right_comm, Nat.add_assoc], u, hu, hrest⟩

/-- The addresses are the ways that stay inside the tree. -/
theorem mem_addresses_iff {t : Tree α} {a : Address} : a ∈ t.addresses ↔ (t.at? a).isSome := by
  induction t using children_induction generalizing a with
  | node value children ih =>
    rw [addresses, List.mem_cons, mem_addressesFrom_iff]
    cases a with
    | nil => simp [at?]
    | cons i rest =>
      cases hchild : children[i]? with
      | none => simp [at?, hchild]
      | some child => simp [at?, hchild, ih child (List.mem_of_getElem? hchild)]

/-- Siblings come in the order of their places. -/
theorem pairwise_addressesFrom (i : Nat) {ts : List (Tree α)}
    (h : ∀ t ∈ ts, t.addresses.Pairwise (· < ·)) : (addressesFrom i ts).Pairwise (· < ·) := by
  induction ts generalizing i with
  | nil => exact List.Pairwise.nil
  | cons t ts ih =>
    obtain ⟨ht, hts⟩ := List.forall_mem_cons.mp h
    rw [addressesFrom, List.pairwise_append]
    refine ⟨?_, ih (i + 1) hts, ?_⟩
    · exact ht.map _ fun a b hab => List.cons_lt_cons_iff.mpr (Or.inr ⟨rfl, hab⟩)
    · intro a ha b hb
      obtain ⟨rest, -, rfl⟩ := List.mem_map.mp ha
      obtain ⟨k, more, rfl, -⟩ := mem_addressesFrom_iff.mp hb
      exact List.cons_lt_cons_iff.mpr (Or.inl (by omega))

theorem pairwise_addresses (t : Tree α) : t.addresses.Pairwise (· < ·) := by
  induction t using children_induction with
  | node value children ih =>
    rw [addresses, List.pairwise_cons]
    refine ⟨fun a ha => ?_, pairwise_addressesFrom 0 ih⟩
    obtain ⟨k, rest, rfl, -⟩ := mem_addressesFrom_iff.mp ha
    exact List.nil_lt_cons _ _

/-! ### Visits by their addresses -/

/-- What is asked of each visit of siblings may be asked of the addresses, if that goes for each of
the siblings. -/
theorem map_walkAllFrom {β : Type} {f : Tree α × Nat → β} {g : Address → β} {depth i : Nat}
    {ts : List (Tree α)}
    (h : ∀ (k : Nat) (t : Tree α), ts[k]? = some t →
      (t.walkFrom depth).map f = t.addresses.map fun a => g ((i + k) :: a)) :
    (walkAllFrom depth ts).map f = (addressesFrom i ts).map g := by
  induction ts generalizing i with
  | nil => rfl
  | cons t ts ih =>
    have hhead := h 0 t rfl
    have htail : (walkAllFrom depth ts).map f = (addressesFrom (i + 1) ts).map g := by
      refine ih fun k u hu => ?_
      rw [h (k + 1) u hu, Nat.add_right_comm, Nat.add_assoc]
    rw [walkAllFrom, addressesFrom, List.map_append, List.map_append, hhead, htail, List.map_map]
    rfl

/-- Each visit is that of the subtree at its address, as deep as the address is long. -/
theorem map_walkFrom (depth : Nat) (t : Tree α) :
    (t.walkFrom depth).map (fun visit => (some visit.1, visit.2))
      = t.addresses.map fun a => (t.at? a, depth + a.length) := by
  induction t using children_induction generalizing depth with
  | node value children ih =>
    rw [walkFrom, addresses, List.map_cons, List.map_cons]
    congr 1
    refine map_walkAllFrom fun k child hchild => ?_
    rw [ih child (List.mem_of_getElem? hchild)]
    refine List.map_congr_left fun a _ => ?_
    rw [Nat.zero_add, at?, hchild, List.length_cons, Nat.add_right_comm, Nat.add_assoc]
    rfl

/-! ### Acting on one node after the other -/

mutual
/-- What becomes of `s` where each subtree with its depth acts on it, parents before children. The
root is at `depth`. -/
def runFrom {σ : Type} (act : Tree α → Nat → σ → σ) (depth : Nat) : Tree α → σ → σ
  | ⟨value, children⟩, s => runAllFrom act (depth + 1) children (act ⟨value, children⟩ depth s)
/-- What becomes of `s` where one tree acts on it after the other. -/
def runAllFrom {σ : Type} (act : Tree α → Nat → σ → σ) (depth : Nat) : List (Tree α) → σ → σ
  | [], s => s
  | t :: ts, s => runAllFrom act depth ts (runFrom act depth t s)
end

theorem runAllFrom_eq_foldl {σ : Type} {act : Tree α → Nat → σ → σ} {depth : Nat}
    {ts : List (Tree α)}
    (h : ∀ t ∈ ts, ∀ s,
      runFrom act depth t s = (t.walkFrom depth).foldl (fun s visit => act visit.1 visit.2 s) s)
    (s : σ) :
    runAllFrom act depth ts s
      = (walkAllFrom depth ts).foldl (fun s visit => act visit.1 visit.2 s) s := by
  induction ts generalizing s with
  | nil => rfl
  | cons t ts ih =>
    obtain ⟨ht, hts⟩ := List.forall_mem_cons.mp h
    rw [runAllFrom, walkAllFrom, List.foldl_append, ht, ih hts]

/-- The visits act one after the other. -/
theorem runFrom_eq_foldl {σ : Type} (act : Tree α → Nat → σ → σ) (depth : Nat) (t : Tree α)
    (s : σ) :
    runFrom act depth t s = (t.walkFrom depth).foldl (fun s visit => act visit.1 visit.2 s) s := by
  induction t using children_induction generalizing depth s with
  | node value children ih =>
    rw [runFrom, walkFrom, List.foldl_cons]
    exact runAllFrom_eq_foldl (fun t ht => ih t ht (depth + 1)) _

end Tree

namespace Forest

variable {α : Type}

/-- The subtree at an address, if it is one of the forest. -/
def at? : Forest α → Address → Option (Tree α)
  | _, [] => none
  | ts, i :: rest => ts[i]?.bind (·.at? rest)

/-- The addresses of a forest in visiting order. -/
def addresses (ts : Forest α) : List Address := Tree.addressesFrom 0 ts

/-- The addresses are those at which the forest has a subtree. -/
theorem mem_addresses_iff {ts : Forest α} {a : Address} :
    a ∈ ts.addresses ↔ (ts.at? a).isSome := by
  rw [addresses, Tree.mem_addressesFrom_iff]
  cases a with
  | nil => simp [at?]
  | cons i rest =>
    cases ht : ts[i]? with
    | none => simp [at?, ht]
    | some t => simp [at?, ht, Tree.mem_addresses_iff]

/-- The addresses increase along the walk. -/
theorem pairwise_addresses (ts : Forest α) : ts.addresses.Pairwise (· < ·) :=
  Tree.pairwise_addressesFrom 0 fun t _ => t.pairwise_addresses

theorem nodup_addresses (ts : Forest α) : ts.addresses.Nodup := by
  refine ts.pairwise_addresses.imp fun {a b} h => ?_
  rintro rfl
  exact List.lt_irrefl a h

/-- On the way to a subtree there are subtrees only. -/
theorem mem_addresses_of_beginning {ts : Forest α} {a b : Address} (hne : a ≠ []) (hpre : a <+: b)
    (hb : b ∈ ts.addresses) : a ∈ ts.addresses := by
  obtain ⟨i, rest, rfl⟩ := List.exists_cons_of_ne_nil hne
  obtain ⟨more, rfl⟩ := hpre
  rw [mem_addresses_iff, List.cons_append, at?] at hb
  rw [mem_addresses_iff, at?]
  cases ht : ts[i]? with
  | none => simp [ht] at hb
  | some t =>
    rw [ht, Option.bind_some, Tree.at?_append] at hb
    exact Option.isSome_of_isSome_bind hb

/-- The nodes above a node are at the beginnings of its address. -/
theorem ancestors_perm_beginnings {ts : Forest α} {a : Address} (ha : a ∈ ts.addresses) :
    (ancestors ts.addresses a).Perm (beginnings a) := by
  have hnodup : (ancestors ts.addresses a).Nodup := ts.nodup_addresses.filter _
  refine (List.perm_ext_iff_of_nodup hnodup (nodup_beginnings a)).mpr fun b => ?_
  rw [ancestors, List.mem_filter, decide_eq_true_iff, mem_beginnings_iff]
  constructor
  · rintro ⟨hb, hpre, hne⟩
    refine ⟨?_, hpre, hne⟩
    rintro rfl
    simp [mem_addresses_iff, at?] at hb
  · rintro ⟨hnil, hpre, hne⟩
    exact ⟨mem_addresses_of_beginning hnil hpre ha, hpre, hne⟩

/-- A node has as many nodes above it as its address has steps after the first. -/
theorem length_ancestors {ts : Forest α} {a : Address} (ha : a ∈ ts.addresses) :
    (ancestors ts.addresses a).length = a.length - 1 := by
  rw [(ancestors_perm_beginnings ha).length_eq, beginnings, List.length_map, List.length_range]

/-- The addresses come in the order of a walk that sees parents before children and siblings in
order. -/
structure IsPreorder (ts : Forest α) (addresses : List Address) : Prop where
  /-- No address comes twice. -/
  once : addresses.Nodup
  /-- The addresses are those at which the forest has a node. -/
  all : ∀ a, a ∈ addresses ↔ (ts.at? a).isSome
  /-- A node comes before each node below it. -/
  below : ∀ a b, a ∈ addresses → b ∈ addresses → a <+: b → a ≠ b → [a, b].Sublist addresses
  /-- A node and those below it come before each later sibling and those below that. -/
  beside : ∀ (parent a b : Address) (i j : Nat), i < j → parent ++ i :: a ∈ addresses →
    parent ++ j :: b ∈ addresses → [parent ++ i :: a, parent ++ j :: b].Sublist addresses

theorem isPreorder_addresses (ts : Forest α) : IsPreorder ts ts.addresses where
  once := ts.nodup_addresses
  all _ := mem_addresses_iff
  below a b ha hb hpre hne := by
    obtain ⟨more, rfl⟩ := hpre
    have hmore : more ≠ [] := fun hnil => hne (by rw [hnil, List.append_nil])
    obtain ⟨i, rest, rfl⟩ := List.exists_cons_of_ne_nil hmore
    refine pair_sublist_of_lt ts.pairwise_addresses ha hb ?_
    have hlt : a ++ [] < a ++ i :: rest := List.append_left_lt (List.nil_lt_cons i rest)
    rwa [List.append_nil] at hlt
  beside parent a b i j hlt ha hb :=
    pair_sublist_of_lt ts.pairwise_addresses ha hb
      (List.append_left_lt (List.cons_lt_cons_iff.mpr (Or.inl hlt)))

/-- Each visit is that of the subtree at its address, as deep as there are nodes above it. -/
theorem map_walk (ts : Forest α) :
    ts.walk.map (fun visit => (some visit.1, visit.2))
      = ts.addresses.map fun a => (ts.at? a, (ancestors ts.addresses a).length) := by
  have hlengths : ts.walk.map (fun visit => (some visit.1, visit.2))
      = ts.addresses.map fun a => (ts.at? a, a.length - 1) := by
    refine Tree.map_walkAllFrom fun k t ht => ?_
    rw [Tree.map_walkFrom]
    refine List.map_congr_left fun a _ => ?_
    rw [Nat.zero_add, Nat.zero_add, at?, ht, List.length_cons, Nat.add_sub_cancel]
    rfl
  rw [hlengths]
  exact List.map_congr_left fun a ha => by rw [length_ancestors ha]

/-- What becomes of `s` where each subtree with its depth acts on it, roots at depth zero. -/
def run {σ : Type} (act : Tree α → Nat → σ → σ) (ts : Forest α) (s : σ) : σ :=
  Tree.runAllFrom act 0 ts s

theorem run_eq_foldl {σ : Type} (act : Tree α → Nat → σ → σ) (ts : Forest α) (s : σ) :
    ts.run act s = ts.walk.foldl (fun s visit => act visit.1 visit.2 s) s :=
  Tree.runAllFrom_eq_foldl (fun t _ => t.runFrom_eq_foldl act 0) s

/-- A search stops at the first visit of a root that has the property. -/
theorem find?_eq_walk (p : α → Bool) (ts : Forest α) :
    ts.find? p = (ts.walk.find? fun visit => p visit.1.value).map Prod.fst := by
  rw [find?_eq, subtrees_eq_map_walk, List.find?_map]
  rfl

end Forest

namespace Node

/-- **Search agrees with the walk.** What is found by an id is the first node on the walk that has
the id, and nothing is found when no node on the walk has it. What is done at each node is done
along the walk. The walk comes once to the node of each address, before those below it and before
its later siblings, and finds it as deep as there are nodes above it. -/
theorem search_agrees_with_walk (id : String) (ts : Forest Layer) :
    findById? id ts = (ts.walk.find? fun visit => visit.1.value.id == id).map Prod.fst
      ∧ (findById? id ts = none ↔ ∀ visit ∈ ts.walk, visit.1.value.id ≠ id)
      ∧ (∀ (σ : Type) (act : Node → Nat → σ → σ) (s : σ),
        ts.run act s = ts.walk.foldl (fun s visit => act visit.1 visit.2 s) s)
      ∧ ∃ addresses : List Address, ts.IsPreorder addresses
        ∧ ts.walk.map (fun visit => (some visit.1, visit.2))
          = addresses.map fun a => (ts.at? a, (ancestors addresses a).length) := by
  have hfind : findById? id ts
      = (ts.walk.find? fun visit => visit.1.value.id == id).map Prod.fst :=
    ts.find?_eq_walk fun l : Layer => l.id == id
  refine ⟨hfind, ?_, fun _ act s => ts.run_eq_foldl act s,
    ts.addresses, ts.isPreorder_addresses, ts.map_walk⟩
  rw [hfind, Option.map_eq_none_iff, List.find?_eq_none]
  simp only [beq_iff_eq, ne_eq]

end Node

end Handoff
