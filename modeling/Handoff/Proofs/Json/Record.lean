import Handoff.Json.Record
import Handoff.Proofs.Binary64.Rounding
import Handoff.Proofs.Numbers
import Handoff.Proofs.Results

/-!
# Records written and read back

A value is the same after it is written and read back, and what is written is not
`null`, which would stand for a missing field (`RoundTrips`). What is written
under a name is found there (`lookup_ifSome`, `lookup_ifAny`, `lookup_flag`), so
that fields are read back when their values are, whether they are required,
optional, or have a default.

Infinity and no number cannot be written. Neither can be read: where the integers
of a JSON value have 64 bits and its other numbers are finite (`InRange`), all
numbers that are read from it are finite (`ReadsFinite`).
-/

namespace Handoff

namespace Json

variable {α β γ : Type} {read : Json → Option α} {write : α → Json} {fields : Fields} {name : String}

/-! ### Values read back -/

/-- A value is read back from what is written for it, which is not `null`. -/
structure RoundTrips (read : Json → Option α) (write : α → Json) (a : α) : Prop where
  read : read (write a) = some a
  ne_null : write a ≠ .null

theorem roundTrips_bool (b : Bool) : RoundTrips bool? .bool b := ⟨rfl, Json.noConfusion⟩

theorem roundTrips_string (s : String) : RoundTrips string? .string s := ⟨rfl, Json.noConfusion⟩

theorem roundTrips_constant (name : String) : RoundTrips constant? .string name :=
  ⟨rfl, Json.noConfusion⟩

theorem roundTrips_number {x : Binary64} (hx : x.isFinite = true) :
    RoundTrips number? ofBinary64 x := by
  have hwrite : ofBinary64 x = .float x := if_pos hx
  refine ⟨?_, ?_⟩
  · rw [hwrite, number?]
  · rw [hwrite]
    exact Json.noConfusion

theorem natBelow?_natCast {limit n : Nat} (h : n < limit) :
    natBelow? limit (.integer n) = some n := by
  have hrange : (0 : Int) ≤ n ∧ (n : Int) < limit := by omega
  rw [natBelow?, if_pos hrange, Int.toNat_natCast]

theorem roundTrips_uint8 (n : UInt8) : RoundTrips uint8? (fun n => .integer n.toNat) n := by
  refine ⟨?_, Json.noConfusion⟩
  rw [uint8?, natBelow?_natCast n.toNat_lt, Option.map_some, UInt8.ofNat_toNat]

theorem roundTrips_uint16 (n : UInt16) : RoundTrips uint16? (fun n => .integer n.toNat) n := by
  refine ⟨?_, Json.noConfusion⟩
  rw [uint16?, natBelow?_natCast n.toNat_lt, Option.map_some, UInt16.ofNat_toNat]

/-- The items of a list are read as what each of them is read as. -/
theorem list?_map {read : Json → Option β} {f : α → β} {xs : List α}
    (h : ∀ x ∈ xs, read (write x) = some (f x)) :
    list? read (.array (xs.map write)) = some (xs.map f) := by
  rw [list?, mapM_eq_some_iff_forall₂, List.forall₂_map_left_iff, List.forall₂_map_right_iff,
    List.forall₂_same]
  exact h

theorem roundTrips_list {xs : List α} (h : ∀ x ∈ xs, RoundTrips read write x) :
    RoundTrips (list? read) (fun xs => .array (xs.map write)) xs := by
  refine ⟨?_, Json.noConfusion⟩
  rw [list?_map fun x hx => (h x hx).read, List.map_id']

/-- Every constant is found by its name. -/
def FoundByName (all : List α) (name : α → String) : Prop :=
  ∀ a, all.find? (fun b => name b == name a) = some a

theorem FoundByName.roundTrips {all : List α} {name : α → String} (h : FoundByName all name) (a : α) :
    RoundTrips (oneOf? all name) (fun a => .string (name a)) a := ⟨h a, Json.noConfusion⟩

theorem FoundByName.roundTrips_or {all : List α} {name : α → String} (h : FoundByName all name)
    (other a : α) : RoundTrips (oneOfOr other all name) (fun a => .string (name a)) a := by
  refine ⟨?_, Json.noConfusion⟩
  rw [oneOfOr, constant?, Option.map_some, h a, Option.getD_some]

/-! ### Fields read back -/

@[simp] theorem lookup_ifSome (k : String) (o : Option α) :
    (ifSome name write o).lookup k = if k == name then o.map write else none := by
  cases o with
  | none => simp [ifSome]
  | some a =>
    rw [ifSome, List.lookup_cons]
    cases k == name <;> rfl

@[simp] theorem lookup_ifAny (k : String) (xs : List α) : (ifAny name write xs).lookup k
    = if k == name then (if xs = [] then none else some (.array (xs.map write))) else none := by
  cases xs with
  | nil => simp [ifAny]
  | cons x xs =>
    rw [ifAny, List.lookup_cons, if_neg (List.cons_ne_nil x xs)]
    cases k == name <;> rfl

@[simp] theorem lookup_flag (k name : String) (b : Bool) (v : Json) :
    (if b then [(name, v)] else [] : Fields).lookup k
      = if k == name then (if b then some v else none) else none := by
  cases b with
  | false => simp
  | true =>
    rw [if_pos rfl, List.lookup_cons]
    cases k == name <;> rfl

theorem required_of_lookup {a : α} (hlookup : fields.lookup name = some (write a))
    (ha : RoundTrips read write a) : fields.required name read = some a := by
  rw [Fields.required, hlookup, Option.bind_some, ha.read]

theorem optional_of_lookup {o : Option α} (hlookup : fields.lookup name = o.map write)
    (ho : ∀ a ∈ o, RoundTrips read write a) : fields.optional name read = some o := by
  unfold Fields.optional
  rw [hlookup]
  cases o with
  | none => rfl
  | some a =>
    have ha := ho a rfl
    rw [Option.map_some]
    split
    · next hnone => cases hnone
    · next hnull => exact absurd (Option.some.inj hnull) ha.ne_null
    · next v _ hv => rw [← Option.some.inj hv, ha.read, Option.map_some]

/-- An optional field that is written as `null` where it has no value. -/
theorem optional_of_lookup_getD {o : Option α}
    (hlookup : fields.lookup name = some ((o.map write).getD .null))
    (ho : ∀ a ∈ o, RoundTrips read write a) : fields.optional name read = some o := by
  cases o with
  | none =>
    unfold Fields.optional
    rw [hlookup]
    rfl
  | some a => exact optional_of_lookup hlookup ho

theorem orDefault_of_lookup {a default : α} (hlookup : fields.lookup name = some (write a))
    (ha : RoundTrips read write a) : fields.orDefault name read default = some a := by
  rw [Fields.orDefault, hlookup]
  exact ha.read

/-- A flag that is written where it is set. -/
theorem orDefault_flag_of_lookup {b : Bool}
    (hlookup : fields.lookup name = if b then some (.bool true) else none) :
    fields.orDefault name bool? false = some b := by
  rw [Fields.orDefault, hlookup]
  cases b <;> rfl

theorem orDefault_list_of_lookup {read : Json → Option β} {f : α → β} {xs : List α}
    (hlookup : fields.lookup name = if xs = [] then none else some (.array (xs.map write)))
    (hxs : ∀ x ∈ xs, read (write x) = some (f x)) :
    fields.orDefault name (list? read) [] = some (xs.map f) := by
  rw [Fields.orDefault, hlookup]
  by_cases hnil : xs = []
  · rw [if_pos hnil, hnil, List.map_nil]
  · rw [if_neg hnil]
    exact list?_map hxs

theorem orDefault_ifAny_of_lookup {xs : List α}
    (hlookup : fields.lookup name = if xs = [] then none else some (.array (xs.map write)))
    (hxs : ∀ x ∈ xs, RoundTrips read write x) : fields.orDefault name (list? read) [] = some xs := by
  rw [orDefault_list_of_lookup hlookup fun x hx => (hxs x hx).read, List.map_id']

/-! ### Kinds that are not known -/

/-- The name under which a vocabulary knows a name: `UNKNOWN` for those that it does not hold. -/
def knownName (all : List α) (name : α → String) (given : String) : String :=
  if given ∈ all.map name then given else "UNKNOWN"

/-- A constant that stands for all unknown names is the one for the name given, as far as known. -/
theorem exists_name_of_oneOfOr {all : List α} {name : α → String} {other a : α} {v : Json}
    (hother : name other = "UNKNOWN") (h : oneOfOr other all name v = some a) :
    ∃ given, v.constant? = some given ∧ name a = knownName all name given := by
  obtain ⟨given, hgiven, rfl⟩ := Option.map_eq_some_iff.mp h
  refine ⟨given, hgiven, ?_⟩
  cases hfound : all.find? fun b => name b == given with
  | none =>
    have hnot : given ∉ all.map name := by
      intro hmem
      obtain ⟨b, hb, hname⟩ := List.mem_map.mp hmem
      exact List.find?_eq_none.mp hfound b hb (beq_iff_eq.mpr hname)
    rw [knownName, if_neg hnot, Option.getD_none, hother]
  | some b =>
    have hname : name b = given := by simpa using List.find?_some hfound
    have hmem : given ∈ all.map name :=
      List.mem_map.mpr ⟨b, List.mem_of_find?_eq_some hfound, hname⟩
    rw [knownName, if_pos hmem, Option.getD_some, hname]

/-- Readers of a value that agree on something agree on it as readers of a required field. -/
theorem exists_required {read' : Json → Option β} {k : α → γ} {l : β → γ}
    (hread : ∀ v a, read v = some a → ∃ b, read' v = some b ∧ k a = l b) {a : α}
    (h : fields.required name read = some a) :
    ∃ b, fields.required name read' = some b ∧ k a = l b := by
  obtain ⟨v, hlookup, hv⟩ := Option.bind_eq_some_iff.mp h
  obtain ⟨b, hb, hagree⟩ := hread v a hv
  exact ⟨b, Option.bind_eq_some_iff.mpr ⟨v, hlookup, hb⟩, hagree⟩

/-- They agree on it as readers of a list that may be missing. -/
theorem exists_orDefault_list {read' : Json → Option β} {k : α → γ} {l : β → γ}
    (hread : ∀ v a, read v = some a → ∃ b, read' v = some b ∧ k a = l b) {xs : List α}
    (h : fields.orDefault name (list? read) [] = some xs) :
    ∃ ys, fields.orDefault name (list? read') [] = some ys ∧ xs.map k = ys.map l := by
  unfold Fields.orDefault at h ⊢
  split at h
  · cases h
    exact ⟨[], rfl, rfl⟩
  · next v _ =>
    cases v with
    | array items => exact exists_mapM_eq_some h fun v a _ => hread v a
    | _ => cases h

/-! ### Numbers in range -/

/-- The integers of the value have 64 bits, with or without a sign, and its other numbers are finite. -/
inductive InRange : Json → Prop where
  /-- The value `null`. -/
  | null : InRange .null
  /-- A truth value. -/
  | bool (b : Bool) : InRange (.bool b)
  /-- An integer of 64 bits. -/
  | integer {n : Int} (hmin : -0x8000000000000000 ≤ n) (hmax : n < 0x10000000000000000) :
      InRange (.integer n)
  /-- A finite number. -/
  | float {x : Binary64} (h : x.isFinite = true) : InRange (.float x)
  /-- A text. -/
  | string (s : String) : InRange (.string s)
  /-- A list of such values. -/
  | array {items : List Json} (h : ∀ v ∈ items, InRange v) : InRange (.array items)
  /-- Such values under names. -/
  | object {fields : List (String × Json)} (h : ∀ f ∈ fields, InRange f.2) :
      InRange (.object fields)

@[simp] theorem inRange_null : InRange .null := .null

@[simp] theorem inRange_integer_iff {n : Int} :
    InRange (.integer n) ↔ -0x8000000000000000 ≤ n ∧ n < 0x10000000000000000 :=
  ⟨fun | .integer hmin hmax => ⟨hmin, hmax⟩, fun h => .integer h.1 h.2⟩

@[simp] theorem inRange_float_iff {x : Binary64} : InRange (.float x) ↔ x.isFinite = true :=
  ⟨fun | .float h => h, .float⟩

@[simp] theorem inRange_string (s : String) : InRange (.string s) := .string s

@[simp] theorem inRange_array_iff {items : List Json} :
    InRange (.array items) ↔ ∀ v ∈ items, InRange v :=
  ⟨fun | .array h => h, .array⟩

@[simp] theorem inRange_object_iff {fields : List (String × Json)} :
    InRange (.object fields) ↔ ∀ f ∈ fields, InRange f.2 :=
  ⟨fun | .object h => h, .object⟩

theorem inRange_of_lookup {v : Json} (hfields : ∀ f ∈ fields, InRange f.2)
    (h : fields.lookup name = some v) : InRange v := by
  induction fields with
  | nil => cases h
  | cons field more ih =>
    obtain ⟨hfield, hmore⟩ := List.forall_mem_cons.mp hfields
    rw [List.lookup_cons] at h
    split at h
    · rw [← Option.some.inj h]
      exact hfield
    · exact ih hmore h

/-- The fields of a value in range are in range. -/
theorem inRange_record? {names : List String} {v : Json} (hv : InRange v)
    (h : record? names v = some fields) : ∀ f ∈ fields, InRange f.2 := by
  cases hv with
  | object hfields =>
    rw [← Option.some.inj h]
    exact hfields
  | array hitems =>
    rw [record?] at h
    split at h
    · rw [← Option.some.inj h]
      exact fun f hf => hitems f.2 (List.of_mem_zip hf).2
    · cases h
  | _ => cases h

/-- What is read from a value in range has finite numbers. -/
def ReadsFinite (read : Json → Option α) (numbers : α → List Binary64) : Prop :=
  ∀ v a, InRange v → read v = some a → AllFinite (numbers a)

theorem readsFinite_number : ReadsFinite number? fun x => [x] := by
  intro v x hv h
  refine allFinite_singleton.mpr ?_
  cases hv with
  | integer hmin hmax =>
    rw [← Option.some.inj h]
    exact Binary64.isFinite_ofInt (abs_lt.mpr ⟨by omega, by omega⟩)
  | float hx =>
    rw [← Option.some.inj h]
    exact hx
  | _ => cases h

variable {numbers : α → List Binary64}

theorem readsFinite_list (hread : ReadsFinite read numbers) :
    ReadsFinite (list? read) fun xs => xs.flatMap numbers := by
  intro v xs hv h
  cases hv with
  | array hitems =>
    refine allFinite_flatMap.mpr ?_
    exact forall_mem_of_mapM_eq_some h fun item hitem x => hread item x (hitems item hitem)
  | _ => cases h

theorem ReadsFinite.required (hread : ReadsFinite read numbers) (hfields : ∀ f ∈ fields, InRange f.2)
    {a : α} (h : fields.required name read = some a) : AllFinite (numbers a) := by
  obtain ⟨v, hlookup, hv⟩ := Option.bind_eq_some_iff.mp h
  exact hread v a (inRange_of_lookup hfields hlookup) hv

theorem ReadsFinite.optional (hread : ReadsFinite read numbers) (hfields : ∀ f ∈ fields, InRange f.2)
    {o : Option α} (h : fields.optional name read = some o) : ∀ a ∈ o, AllFinite (numbers a) := by
  unfold Fields.optional at h
  split at h
  · cases h
    simp
  · cases h
    simp
  · next v hnull hlookup =>
    obtain ⟨a, hv, rfl⟩ := Option.map_eq_some_iff.mp h
    intro b hb
    cases hb
    exact hread v a (inRange_of_lookup hfields hlookup) hv

theorem ReadsFinite.orDefault (hread : ReadsFinite read numbers) (hfields : ∀ f ∈ fields, InRange f.2)
    {a default : α} (h : fields.orDefault name read default = some a)
    (hdefault : AllFinite (numbers default)) : AllFinite (numbers a) := by
  unfold Fields.orDefault at h
  split at h
  · cases h
    exact hdefault
  · next v hlookup => exact hread v a (inRange_of_lookup hfields hlookup) h

theorem isFinite_of_required (hfields : ∀ f ∈ fields, InRange f.2) {x : Binary64}
    (h : fields.required name number? = some x) : x.isFinite = true :=
  allFinite_singleton.mp (readsFinite_number.required hfields h)

theorem isFinite_of_optional (hfields : ∀ f ∈ fields, InRange f.2) {o : Option Binary64}
    (h : fields.optional name number? = some o) : ∀ x ∈ o, x.isFinite = true :=
  fun x hx => allFinite_singleton.mp (readsFinite_number.optional hfields h x hx)

theorem isFinite_of_orDefault (hfields : ∀ f ∈ fields, InRange f.2) {x default : Binary64}
    (h : fields.orDefault name number? default = some x) (hdefault : default.isFinite = true) :
    x.isFinite = true :=
  allFinite_singleton.mp (readsFinite_number.orDefault hfields h (allFinite_singleton.mpr hdefault))

theorem allFinite_of_list (hread : ReadsFinite read numbers) (hfields : ∀ f ∈ fields, InRange f.2)
    {xs : List α} (h : fields.orDefault name (list? read) [] = some xs) :
    ∀ x ∈ xs, AllFinite (numbers x) := by
  refine allFinite_flatMap.mp ((readsFinite_list hread).orDefault hfields h ?_)
  exact fun x hx => absurd hx List.not_mem_nil

end Json

end Handoff
