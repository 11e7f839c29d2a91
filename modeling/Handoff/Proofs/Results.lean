import Mathlib.Data.List.Forall2

/-!
# Lists of results

Results that may be errors, of the items of a list one after the other: all of
them, or the first error. Where all items have a result, what the results say is
what the items say (`map_eq_map_of_mapM_eq_ok`); where one has none, the error is
that of the first such item (`error?_mapM`). Of results that may be missing all
are there or none.
-/

namespace Handoff

variable {ε α β γ δ : Type} {f : α → Except ε β}

/-! ### Results and errors apart -/

section Apart

variable {ζ : Type} {r : Except ε α}

theorem mapError_eq_ok_iff {g : ε → δ} {a : α} : r.mapError g = .ok a ↔ r = .ok a := by
  cases r <;> simp [Except.mapError]

theorem map_mapError (g : ε → δ) (k : α → β) : (r.mapError g).map k = (r.map k).mapError g := by
  cases r <;> rfl

theorem mapError_mapError (g : ε → δ) (k : δ → ζ) :
    (r.mapError g).mapError k = r.mapError (k ∘ g) := by
  cases r <;> rfl

end Apart

/-! ### Results of all items -/

theorem mapM_cons_eq_ok_iff {x : α} {xs : List α} {ys : List β} : (x :: xs).mapM f = .ok ys
    ↔ ∃ y more, f x = .ok y ∧ xs.mapM f = .ok more ∧ y :: more = ys := by
  rw [List.mapM_cons]
  cases f x with
  | error e => simp [bind, Except.bind]
  | ok y =>
    cases xs.mapM f with
    | error e => simp [bind, Except.bind]
    | ok more => simp [bind, Except.bind, pure, Except.pure]

/-- The results of all items are there when each item has its own. -/
theorem mapM_eq_ok_iff_forall₂ {xs : List α} {ys : List β} :
    xs.mapM f = .ok ys ↔ List.Forall₂ (fun x y => f x = .ok y) xs ys := by
  induction xs generalizing ys with
  | nil =>
    rw [List.mapM_nil, List.forall₂_nil_left_iff]
    exact ⟨fun h => (Except.ok.inj h).symm, fun h => congrArg Except.ok h.symm⟩
  | cons x xs ih =>
    rw [mapM_cons_eq_ok_iff, List.forall₂_cons_left_iff]
    simp only [ih, exists_and_left, eq_comm (b := ys)]

/-- Where all items have a result, what the results say is what the items say. -/
theorem map_eq_map_of_mapM_eq_ok {g : β → γ} {k : α → γ} {xs : List α} {ys : List β}
    (h : xs.mapM f = .ok ys) (hstep : ∀ x ∈ xs, ∀ y, f x = .ok y → g y = k x) :
    ys.map g = xs.map k := by
  induction xs generalizing ys with
  | nil =>
    cases h
    rfl
  | cons x xs ih =>
    obtain ⟨hfirst, hmore⟩ := List.forall_mem_cons.mp hstep
    obtain ⟨y, more, hx, hxs, rfl⟩ := mapM_cons_eq_ok_iff.mp h
    rw [List.map_cons, List.map_cons, hfirst y hx, ih hxs hmore]

/-- What every result is holds of all the results. -/
theorem forall_mem_of_mapM_eq_ok {p : β → Prop} {xs : List α} {ys : List β} (h : xs.mapM f = .ok ys)
    (hstep : ∀ x ∈ xs, ∀ y, f x = .ok y → p y) : ∀ y ∈ ys, p y := by
  induction xs generalizing ys with
  | nil =>
    cases h
    simp
  | cons x xs ih =>
    obtain ⟨hfirst, hmore⟩ := List.forall_mem_cons.mp hstep
    obtain ⟨y, more, hx, hxs, rfl⟩ := mapM_cons_eq_ok_iff.mp h
    exact List.forall_mem_cons.mpr ⟨hfirst y hx, ih hxs hmore⟩

/-- The results of more items begin with those of the items before them. -/
theorem prefix_of_mapM_eq_ok {xs xs' : List α} {ys ys' : List β} (h : xs <+: xs')
    (hys : xs.mapM f = .ok ys) (hys' : xs'.mapM f = .ok ys') : ys <+: ys' := by
  induction xs generalizing xs' ys ys' with
  | nil =>
    cases hys
    exact List.nil_prefix
  | cons x xs ih =>
    obtain ⟨rest, rfl⟩ := h
    obtain ⟨y, more, hx, hxs, rfl⟩ := mapM_cons_eq_ok_iff.mp hys
    obtain ⟨y', more', hx', hxs', rfl⟩ := mapM_cons_eq_ok_iff.mp hys'
    obtain rfl : y = y' := Except.ok.inj (hx.symm.trans hx')
    exact List.prefix_cons_inj y |>.mpr (ih (List.prefix_append xs rest) hxs hxs')

/-! ### The first error -/

/-- The error of a result that is one. -/
def error? : Except ε α → Option ε
  | .error e => some e
  | .ok _ => none

theorem error?_eq_some_iff {r : Except ε α} {e : ε} : error? r = some e ↔ r = .error e := by
  cases r <;> simp [error?]

theorem error?_eq_none_iff {r : Except ε α} : error? r = none ↔ ∃ a, r = .ok a := by
  cases r <;> simp [error?]

@[simp] theorem error?_map (g : α → β) (r : Except ε α) : error? (r.map g) = error? r := by
  cases r <;> rfl

@[simp] theorem error?_mapError (g : ε → δ) (r : Except ε α) :
    error? (r.mapError g) = (error? r).map g := by
  cases r <;> rfl

/-- The error of a list of results is the first one. -/
theorem error?_mapM (xs : List α) : error? (xs.mapM f) = xs.findSome? fun x => error? (f x) := by
  induction xs with
  | nil => rfl
  | cons x xs ih =>
    rw [List.mapM_cons, List.findSome?_cons, ← ih]
    cases f x with
    | error e => rfl
    | ok y => cases xs.mapM f <;> rfl

/-- All items together have a result where each has one. -/
theorem exists_mapM_eq_ok_iff {xs : List α} :
    (∃ ys, xs.mapM f = .ok ys) ↔ ∀ x ∈ xs, ∃ y, f x = .ok y := by
  simp only [← error?_eq_none_iff, error?_mapM, List.findSome?_eq_none_iff]

/-! ### Results that may be missing -/

section Missing

variable {g : α → Option β} {xs : List α} {ys : List β}

/-- A step of a reader in `do` notation, taken apart before the steps that follow it. -/
theorem bind_eq_some_iff {o : Option α} {b : β} :
    (o >>= g) = some b ↔ ∃ a, o = some a ∧ g a = some b := Option.bind_eq_some_iff

/-- The results of all items are there when each item has its own. -/
theorem mapM_eq_some_iff_forall₂ :
    xs.mapM g = some ys ↔ List.Forall₂ (fun x y => g x = some y) xs ys := by
  induction xs generalizing ys with
  | nil =>
    rw [List.mapM_nil, List.forall₂_nil_left_iff]
    exact ⟨fun h => (Option.some.inj h).symm, fun h => congrArg some h.symm⟩
  | cons x xs ih =>
    rw [List.mapM_cons, List.forall₂_cons_left_iff]
    simp only [Option.bind_eq_bind, Option.bind_eq_some_iff, ih, Option.pure_def,
      Option.some.injEq]
    constructor
    · rintro ⟨y, hy, more, hmore, rfl⟩
      exact ⟨y, more, hy, hmore, rfl⟩
    · rintro ⟨y, more, hy, hmore, rfl⟩
      exact ⟨y, hy, more, hmore, rfl⟩

/-- Where all items together have a result, each has one. -/
theorem exists_of_mapM_eq_some (h : xs.mapM g = some ys) : ∀ x ∈ xs, ∃ y, g x = some y := by
  induction mapM_eq_some_iff_forall₂.mp h with
  | nil => simp
  | cons hxy hmore ih =>
    exact List.forall_mem_cons.mpr ⟨⟨_, hxy⟩, ih (mapM_eq_some_iff_forall₂.mpr hmore)⟩

/-- What each result is where it belongs to the list holds of all the results. -/
theorem forall_mem_of_mapM_eq_some {p : β → Prop} (h : xs.mapM g = some ys)
    (hstep : ∀ x ∈ xs, ∀ y, g x = some y → p y) : ∀ y ∈ ys, p y := by
  induction mapM_eq_some_iff_forall₂.mp h with
  | nil => simp
  | cons hxy hmore ih =>
    obtain ⟨hfirst, hrest⟩ := List.forall_mem_cons.mp hstep
    exact List.forall_mem_cons.mpr
      ⟨hfirst _ hxy, ih (mapM_eq_some_iff_forall₂.mpr hmore) hrest⟩

/-- Where two results of an item agree on something, those of all items do. -/
theorem exists_mapM_eq_some {g' : α → Option γ} {k : β → δ} {l : γ → δ} (h : xs.mapM g = some ys)
    (hstep : ∀ x, ∀ y ∈ ys, g x = some y → ∃ z, g' x = some z ∧ k y = l z) :
    ∃ zs, xs.mapM g' = some zs ∧ ys.map k = zs.map l := by
  induction mapM_eq_some_iff_forall₂.mp h with
  | nil => exact ⟨[], rfl, rfl⟩
  | @cons x y xs ys hxy hmore ih =>
    obtain ⟨z, hz, hyz⟩ := hstep x y List.mem_cons_self hxy
    obtain ⟨zs, hzs, hmap⟩ := ih (mapM_eq_some_iff_forall₂.mpr hmore)
      fun x y hy => hstep x y (List.mem_cons_of_mem _ hy)
    refine ⟨z :: zs, ?_, by rw [List.map_cons, List.map_cons, hyz, hmap]⟩
    exact mapM_eq_some_iff_forall₂.mpr (.cons hz (mapM_eq_some_iff_forall₂.mp hzs))

end Missing

end Handoff
