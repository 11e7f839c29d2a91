import Handoff.Proofs.Binary64.Digits
import Handoff.Proofs.Project.Identifier
import Handoff.Proofs.Project.Renaming

/-!
# Names of components and files

Names that are given out one after the other are distinct, since each is free when
it is given (`nodup_assign`), and each is the name that was asked for or this with a
number (`forall_mem_assign`). A number leaves a name an identifier or a stem. A name
that does not end in a digit is given only to who asks for it first
(`getElem?_assign_eq_some_iff`).
-/

namespace Handoff.Name

open Text

/-! ### Names of layers -/

/-- **The name of a component is an identifier**, whatever the name of its layer is. -/
theorem isPlainIdentifier_component (name : String) : IsPlainIdentifier (component name) :=
  (isCapitalized_identifier fun _ => splitsRuns_splitRun.isWord).isPlainIdentifier

/-- The name of a screen file has ASCII letters, digits and dashes. -/
theorem isPlainStem_screen (name : String) : IsPlainStem (screen name) :=
  (isDashed_stem fun _ => splitsRuns_splitRun.isWord).isPlainStem

/-! ### Numbered names -/

/-- A numbered name ends in a digit. -/
theorem exists_digit_numbered (base : String) (n : Nat) :
    ∃ c ∈ (numbered base n).toList.getLast?, c.isDigit = true := by
  have hne : Nat.toDigits 10 n ≠ [] := Nat.toDigits_ne_nil
  refine ⟨(Nat.toDigits 10 n).getLast hne, ?_, allDigits_toDigits n _ (List.getLast_mem hne)⟩
  rw [toList_numbered, List.getLast?_append_of_ne_nil _ hne, List.getLast?_eq_some_getLast hne]
  rfl

theorem isAlphanum_of_mem_toDigits {n : Nat} {c : Char} (h : c ∈ Nat.toDigits 10 n) :
    c.isAlphanum = true := by
  rw [Char.isAlphanum, allDigits_toDigits n c h, Bool.or_true]

theorem IsPlainIdentifier.numbered {base : String} (h : IsPlainIdentifier base) (n : Nat) :
    IsPlainIdentifier (numbered base n) := by
  obtain ⟨c, hc, halpha⟩ := h.begins
  obtain ⟨rest, hrest⟩ := List.head?_eq_some_iff.mp hc
  refine ⟨⟨c, by simp [toList_numbered, hrest], halpha⟩, ?_⟩
  rw [toList_numbered]
  exact List.forall_mem_append.mpr ⟨h.alphanum, fun _ hd => isAlphanum_of_mem_toDigits hd⟩

theorem IsPlainStem.numbered {base : String} (h : IsPlainStem base) (n : Nat) :
    IsPlainStem (numbered base n) := by
  rw [IsPlainStem, toList_numbered]
  exact List.forall_mem_append.mpr ⟨h, fun _ hd => .inl (isAlphanum_of_mem_toDigits hd)⟩

/-- A free name is the name itself or the name with a number. -/
theorem fresh_eq_or (taken : List String) (base : String) :
    fresh taken base = base ∨ ∃ n, fresh taken base = numbered base n := by
  by_cases h : base ∈ taken
  · obtain ⟨n, -, -, hfresh, -⟩ := fresh_of_mem h
    exact .inr ⟨n, hfresh⟩
  · exact .inl (fresh_of_notMem h)

/-! ### Names given out one after the other -/

@[simp] theorem assign_nil (taken : List String) : assign taken [] = [] := rfl

/-- What is given is in use for those who ask later. -/
@[simp] theorem assign_cons (taken : List String) (base : String) (more : List String) :
    assign taken (base :: more) = fresh taken base :: assign (fresh taken base :: taken) more := by
  rw [assign, unique_eq]

@[simp] theorem length_assign (taken bases : List String) :
    (assign taken bases).length = bases.length := by
  induction bases generalizing taken with
  | nil => rfl
  | cons base more ih => simp [ih]

/-- More names at the end leave the names given out before them. -/
theorem prefix_assign (taken : List String) {bases more : List String} (h : bases <+: more) :
    assign taken bases <+: assign taken more := by
  obtain ⟨rest, rfl⟩ := h
  induction bases generalizing taken with
  | nil => exact List.nil_prefix
  | cons base bases ih =>
    rw [List.cons_append, assign_cons, assign_cons, List.prefix_cons_inj]
    exact ih (fresh taken base :: taken)

theorem notMem_of_mem_assign {taken bases : List String} {name : String}
    (h : name ∈ assign taken bases) : name ∉ taken := by
  induction bases generalizing taken with
  | nil => simp at h
  | cons base more ih =>
    rw [assign_cons] at h
    rcases List.mem_cons.mp h with rfl | h
    · exact fresh_notMem taken base
    · exact fun hmem => ih h (List.mem_cons_of_mem _ hmem)

/-- **Names that are given out are distinct.** -/
theorem nodup_assign (taken bases : List String) : (assign taken bases).Nodup := by
  induction bases generalizing taken with
  | nil => exact .nil
  | cons base more ih =>
    rw [assign_cons]
    exact .cons (fun hmem => notMem_of_mem_assign hmem List.mem_cons_self) (ih _)

/-- What holds of the names asked for, with any numbers, holds of the names given out. -/
theorem forall_mem_assign {P : String → Prop} (hnumbered : ∀ base n, P base → P (numbered base n))
    {bases : List String} (h : ∀ base ∈ bases, P base) (taken : List String) :
    ∀ name ∈ assign taken bases, P name := by
  induction bases generalizing taken with
  | nil => simp
  | cons base more ih =>
    rw [assign_cons]
    obtain ⟨hbase, hmore⟩ := List.forall_mem_cons.mp h
    refine List.forall_mem_cons.mpr ⟨?_, ih hmore _⟩
    rcases fresh_eq_or taken base with hfresh | ⟨n, hfresh⟩
    · rwa [hfresh]
    · rw [hfresh]
      exact hnumbered base n hbase

/-- The name at a position is a free one, given those before it. -/
theorem getElem?_assign (taken bases : List String) (i : Nat) :
    (assign taken bases)[i]?
      = bases[i]?.map (fresh ((assign taken (bases.take i)).reverse ++ taken)) := by
  induction bases generalizing taken i with
  | nil => simp
  | cons base more ih =>
    cases i with
    | zero => simp
    | succ i => simp [ih]

/-! ### Names without a number -/

section Unnumbered

variable {name : String} (hlast : ∀ c ∈ name.toList.getLast?, c.isDigit = false)

include hlast

theorem numbered_ne (base : String) (n : Nat) : numbered base n ≠ name := by
  rintro rfl
  obtain ⟨c, hc, hdigit⟩ := exists_digit_numbered base n
  exact Bool.false_ne_true ((hlast c hc).symm.trans hdigit)

/-- A name without a number is only given to who asks for it first. -/
theorem fresh_eq_iff (taken : List String) (base : String) :
    fresh taken base = name ↔ base = name ∧ name ∉ taken := by
  constructor
  · rintro rfl
    rcases fresh_eq_or taken base with hfresh | ⟨n, hfresh⟩
    · exact ⟨hfresh.symm, fresh_notMem taken base⟩
    · exact absurd hfresh.symm (numbered_ne hlast base n)
  · rintro ⟨rfl, hfree⟩
    exact fresh_of_notMem hfree

theorem mem_assign_iff (taken bases : List String) :
    name ∈ assign taken bases ↔ name ∈ bases ∧ name ∉ taken := by
  induction bases generalizing taken with
  | nil => simp
  | cons base more ih =>
    rw [assign_cons, List.mem_cons, List.mem_cons, ih, List.mem_cons, not_or]
    have hfirst := fresh_eq_iff hlast taken base
    grind

/-- **A name without a number stands where it is asked for first**, and nowhere else. -/
theorem getElem?_assign_eq_some_iff (bases : List String) (i : Nat) :
    (assign [] bases)[i]? = some name ↔ bases[i]? = some name ∧ name ∉ bases.take i := by
  have hmem := mem_assign_iff hlast [] (bases.take i)
  rw [getElem?_assign, Option.map_eq_some_iff, List.append_nil]
  simp only [fresh_eq_iff hlast, List.mem_reverse, hmem, List.not_mem_nil, not_false_eq_true,
    and_true]
  constructor
  · rintro ⟨base, hbase, rfl, hfirst⟩
    exact ⟨hbase, hfirst⟩
  · rintro ⟨hbase, hfirst⟩
    exact ⟨name, hbase, rfl, hfirst⟩

end Unnumbered

end Handoff.Name
