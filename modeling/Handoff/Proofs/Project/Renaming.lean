import Handoff.Project.Name
import Mathlib.Data.List.Nodup
import Mathlib.Data.List.Perm.Subperm
import Mathlib.Data.Nat.Find

/-!
# The search for a free name

A name that is used gets a number, and the numbers are tried from two on. A try
that fails adds a name that was there already, so the names in use stay as they
are from one try to the next (`uniqueFrom_of_mem`), and after any number of such
tries (`uniqueFrom_of_forall_mem`). The search comes to an end because no name is
tried twice: among one try more than there are names in use there is one that
succeeds (`exists_candidate_notMem`). What is found is the first of the names tried
that is free, and it is all that is added (`exists_unique_eq`). Hence
**`unique_smallest_free`**: the name itself if it is free, or else the name with
the smallest number that makes it free.
-/

namespace Handoff.Name

variable {taken : List String} {base : String}

/-! ### Tries -/

/-- A try that fails changes nothing but what is tried next. -/
theorem uniqueFrom_of_mem {k : Nat} (h : candidate base k ∈ taken) :
    uniqueFrom base k taken = uniqueFrom base (k + 1) taken := by
  rw [uniqueFrom, if_pos h, List.insert_of_mem h]

/-- A try that succeeds ends the search. -/
theorem uniqueFrom_of_notMem {k : Nat} (h : candidate base k ∉ taken) :
    uniqueFrom base k taken = (candidate base k, candidate base k :: taken) := by
  rw [uniqueFrom, if_neg h, List.insert_of_not_mem h]

/-- Tries that fail change nothing but what is tried after them. -/
theorem uniqueFrom_of_forall_mem {n : Nat} (h : ∀ k < n, candidate base k ∈ taken) :
    uniqueFrom base 0 taken = uniqueFrom base n taken := by
  induction n with
  | zero => rfl
  | succ n ih =>
    have hbefore := ih fun k hk => h k (Nat.lt_succ_of_lt hk)
    rw [hbefore, uniqueFrom_of_mem (h n (Nat.lt_succ_self n))]

/-- There are more names to try than names in use. -/
theorem exists_candidate_notMem (taken : List String) (base : String) :
    ∃ k ≤ taken.length, candidate base k ∉ taken := by
  by_contra hall
  push Not at hall
  have hnodup : ((List.range (taken.length + 1)).map (candidate base)).Nodup :=
    List.nodup_range.map fun _ _ h => candidate_injective h
  have hsubset : (List.range (taken.length + 1)).map (candidate base) ⊆ taken := by
    intro name hname
    obtain ⟨k, hk, rfl⟩ := List.mem_map.mp hname
    exact hall k (Nat.lt_succ_iff.mp (List.mem_range.mp hk))
  have hlength := (hnodup.subperm hsubset).length_le
  rw [List.length_map, List.length_range] at hlength
  omega

/-- The search ends at the first of the names tried that is free, and adds this one. -/
theorem exists_unique_eq (taken : List String) (base : String) :
    ∃ k ≤ taken.length, (∀ j < k, candidate base j ∈ taken) ∧ candidate base k ∉ taken
      ∧ unique taken base = (candidate base k, candidate base k :: taken) := by
  obtain ⟨bound, hbound, hfree⟩ := exists_candidate_notMem taken base
  have hexists : ∃ k, candidate base k ∉ taken := ⟨bound, hfree⟩
  have hused : ∀ j < Nat.find hexists, candidate base j ∈ taken := by
    intro j hj
    by_contra hnot
    exact Nat.find_min hexists hj hnot
  refine ⟨Nat.find hexists, ?_, hused, Nat.find_spec hexists, ?_⟩
  · exact Nat.le_trans (Nat.find_min' hexists hfree) hbound
  · rw [unique, uniqueFrom_of_forall_mem hused, uniqueFrom_of_notMem (Nat.find_spec hexists)]

/-! ### Free names -/

/-- The name that is given to who asks for `base`. -/
def fresh (taken : List String) (base : String) : String := (unique taken base).1

theorem unique_eq (taken : List String) (base : String) :
    unique taken base = (fresh taken base, fresh taken base :: taken) := by
  obtain ⟨k, -, -, -, heq⟩ := exists_unique_eq taken base
  rw [fresh, heq]

theorem fresh_notMem (taken : List String) (base : String) : fresh taken base ∉ taken := by
  obtain ⟨k, -, -, hfree, heq⟩ := exists_unique_eq taken base
  rwa [fresh, heq]

theorem fresh_of_notMem (h : base ∉ taken) : fresh taken base = base := by
  have hfirst : candidate base 0 ∉ taken := h
  rw [fresh, unique, uniqueFrom_of_notMem hfirst]
  rfl

/-- A name that is used gets the smallest number from two on that makes it free. -/
theorem fresh_of_mem (h : base ∈ taken) :
    ∃ n, 2 ≤ n ∧ n ≤ taken.length + 1 ∧ fresh taken base = numbered base n
      ∧ ∀ m, 2 ≤ m → m < n → numbered base m ∈ taken := by
  obtain ⟨k, hk, hused, hfree, heq⟩ := exists_unique_eq taken base
  cases k with
  | zero => exact absurd h hfree
  | succ k =>
    refine ⟨k + 2, by omega, by omega, congrArg Prod.fst heq, fun m hm hlt => ?_⟩
    obtain ⟨j, rfl⟩ := Nat.exists_eq_add_of_le' hm
    exact hused (j + 1) (by omega)

/-- **The search ends with the smallest free name.** A name that is free is given as it is. A name
that is used is given with the smallest number from two on that makes it free, which is no larger
than the count of names in use and one. What is given was not in use, and after that it is in use
besides what was in use before. -/
theorem unique_smallest_free (taken : List String) (base : String) :
    (base ∉ taken ∧ (unique taken base).1 = base
      ∨ base ∈ taken ∧ ∃ n, 2 ≤ n ∧ n ≤ taken.length + 1
        ∧ (unique taken base).1 = base ++ toString n
        ∧ base ++ toString n ∉ taken
        ∧ ∀ m, 2 ≤ m → m < n → base ++ toString m ∈ taken)
      ∧ (unique taken base).1 ∉ taken
      ∧ ∀ name, name ∈ (unique taken base).2 ↔ name = (unique taken base).1 ∨ name ∈ taken := by
  have hafter : ∀ name,
      name ∈ (unique taken base).2 ↔ name = (unique taken base).1 ∨ name ∈ taken := by
    intro name
    rw [unique_eq]
    exact List.mem_cons
  refine ⟨?_, fresh_notMem taken base, hafter⟩
  by_cases hbase : base ∈ taken
  · obtain ⟨n, hn, hbound, heq, hsmaller⟩ := fresh_of_mem hbase
    have hfree : numbered base n ∉ taken := heq ▸ fresh_notMem taken base
    exact .inr ⟨hbase, n, hn, hbound, heq, hfree, hsmaller⟩
  · exact .inl ⟨hbase, fresh_of_notMem hbase⟩

end Handoff.Name
