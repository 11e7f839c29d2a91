import Handoff.Proofs.Json.Pretty
import Handoff.Proofs.Token.Json

/-!
# Token files

The text of a token set is read as the JSON that it was written from, whatever its
numbers are (`TokenSet.read?_text`): a number that is not finite has no form in
JSON and is written as `null`. So there is a `null` in the JSON exactly where one is
not finite (`TokenSet.isFilled_toJson_iff`). All numbers of a token are required, but
for the space between letters. So a set in which this one is finite is read back
exactly where the others are finite too (`TokenSet.exists_read_iff`).
-/

namespace Handoff

namespace Json

/-! ### Numbers without a form -/

/-- There is no `null` in the value. -/
inductive IsFilled : Json → Prop where
  /-- A truth value. -/
  | bool (b : Bool) : IsFilled (.bool b)
  /-- An integer. -/
  | integer (n : Int) : IsFilled (.integer n)
  /-- Another number. -/
  | float (x : Binary64) : IsFilled (.float x)
  /-- A text. -/
  | string (s : String) : IsFilled (.string s)
  /-- A list of such values. -/
  | array {items : List Json} (h : ∀ v ∈ items, IsFilled v) : IsFilled (.array items)
  /-- Such values under names. -/
  | object {fields : List (String × Json)} (h : ∀ f ∈ fields, IsFilled f.2) :
      IsFilled (.object fields)

@[simp] theorem isFilled_bool (b : Bool) : IsFilled (.bool b) := .bool b

@[simp] theorem isFilled_integer (n : Int) : IsFilled (.integer n) := .integer n

@[simp] theorem isFilled_string (s : String) : IsFilled (.string s) := .string s

@[simp] theorem isFilled_array_iff {items : List Json} :
    IsFilled (.array items) ↔ ∀ v ∈ items, IsFilled v :=
  ⟨fun | .array h => h, .array⟩

@[simp] theorem isFilled_object_iff {fields : List (String × Json)} :
    IsFilled (.object fields) ↔ ∀ f ∈ fields, IsFilled f.2 :=
  ⟨fun | .object h => h, .object⟩

/-- A number is written as `null` where it is not finite. -/
@[simp] theorem isFilled_ofBinary64_iff {x : Binary64} :
    IsFilled (ofBinary64 x) ↔ x.isFinite = true := by
  unfold ofBinary64
  split
  · next hx => exact iff_of_true (.float x) hx
  · next hx => exact iff_of_false (fun h => nomatch h) hx

@[simp] theorem forall_mem_ifSome {α : Type} {name : String} {write : α → Json} {o : Option α}
    {P : String × Json → Prop} :
    (∀ f ∈ ifSome name write o, P f) ↔ ∀ a ∈ o, P (name, write a) := by
  cases o <;> simp [ifSome]

@[simp] theorem isRegular_ofBinary64 (x : Binary64) : IsRegular (ofBinary64 x) := by
  unfold ofBinary64
  split
  · next hx => exact .float hx
  · exact .null

@[simp] theorem isRegular_uint8 (n : UInt8) : IsRegular (.integer n.toNat) := by
  have hlt := n.toNat_lt
  exact .integer (by omega) (by omega)

@[simp] theorem isRegular_uint16 (n : UInt16) : IsRegular (.integer n.toNat) := by
  have hlt := n.toNat_lt
  exact .integer (by omega) (by omega)

@[simp] theorem depth_ofBinary64 (x : Binary64) : (ofBinary64 x).depth = 0 := by
  unfold ofBinary64
  split <;> rfl

/-- A required number is there when it is finite. -/
theorem isFinite_of_required_ofBinary64 {fields : Fields} {name : String} {x y : Binary64}
    (hlookup : fields.lookup name = some (ofBinary64 x))
    (h : fields.required name number? = some y) : x.isFinite = true := by
  by_contra hx
  rw [Fields.required, hlookup, ofBinary64, if_neg hx] at h
  cases h

/-- A required list is there when each of its items is read. -/
theorem exists_of_required_list {α β : Type} {fields : Fields} {name : String} {write : α → Json}
    {read : Json → Option β} {xs : List α} {ys : List β}
    (hlookup : fields.lookup name = some (.array (xs.map write)))
    (h : fields.required name (list? read) = some ys) : ∀ x ∈ xs, ∃ y, read (write x) = some y := by
  rw [Fields.required, hlookup, Option.bind_some, list?] at h
  exact fun x hx => exists_of_mapM_eq_some h _ (List.mem_map_of_mem hx)

end Json

open Json

/-! ### The text of a token set -/

theorem Rgb8.isRegular_toJson (c : Rgb8) : c.toJson.IsRegular := by
  simp [toJson]

theorem Rgb8.isFilled_toJson (c : Rgb8) : c.toJson.IsFilled := by
  simp [toJson]

theorem ColorToken.isRegular_toJson (t : ColorToken) : t.toJson.IsRegular := by
  simp [toJson, Rgb8.isRegular_toJson]

theorem ColorToken.isFilled_toJson_iff {t : ColorToken} :
    t.toJson.IsFilled ↔ AllFinite t.numbers := by
  simp [toJson, numbers, Rgb8.isFilled_toJson, allFinite_singleton]

theorem TypographyToken.isRegular_toJson (t : TypographyToken) : t.toJson.IsRegular := by
  cases h : t.letterSpacing <;> simp [toJson, ifSome, h]

theorem TypographyToken.isFilled_toJson_iff {t : TypographyToken} :
    t.toJson.IsFilled ↔ AllFinite t.numbers := by
  cases h : t.letterSpacing <;>
    simp [toJson, numbers, ifSome, h, allFinite_cons, allFinite_nil]

theorem SpacingToken.isRegular_toJson (t : SpacingToken) : t.toJson.IsRegular := by
  simp [toJson]

theorem SpacingToken.isFilled_toJson_iff {t : SpacingToken} :
    t.toJson.IsFilled ↔ AllFinite t.numbers := by
  simp [toJson, numbers, allFinite_singleton]

theorem ShadowToken.isRegular_toJson (t : ShadowToken) : t.toJson.IsRegular := by
  simp [toJson]

theorem ShadowToken.isFilled_toJson_iff {t : ShadowToken} :
    t.toJson.IsFilled ↔ AllFinite t.numbers := by
  simp [toJson, numbers, allFinite_cons, allFinite_nil]

theorem Provenance.isRegular_toJson (p : Provenance) : p.toJson.IsRegular := by
  simp [toJson]

theorem Provenance.isFilled_toJson (p : Provenance) : p.toJson.IsFilled := by
  simp [toJson]

namespace TokenSet

variable {t : TokenSet}

theorem isRegular_toJson (t : TokenSet) : t.toJson.IsRegular := by
  cases h : t.provenance <;>
    simp [toJson, ifSome, h, ColorToken.isRegular_toJson, TypographyToken.isRegular_toJson,
      SpacingToken.isRegular_toJson, ShadowToken.isRegular_toJson, Provenance.isRegular_toJson]

theorem depth_toJson_le (t : TokenSet) : t.toJson.depth ≤ nestingLimit := by
  have hlist : ∀ {α : Type} (write : α → Json) (xs : List α), (∀ x, (write x).depth ≤ 2) →
      (Json.array (xs.map write)).depth ≤ 3 := fun write xs h =>
    Nat.succ_le_succ (depthOfItems_le (List.forall_mem_map.mpr fun x _ => h x))
  have hfields : ∀ f ∈ [("colors", Json.array (t.colors.map ColorToken.toJson)),
      ("typography", .array (t.typography.map TypographyToken.toJson)),
      ("spacing", .array (t.spacing.map SpacingToken.toJson)),
      ("effects", .array (t.effects.map ShadowToken.toJson))]
      ++ ifSome "metadata" Provenance.toJson t.provenance, f.2.depth ≤ 3 := by
    simp only [List.forall_mem_append, List.forall_mem_cons, forall_mem_ifSome]
    refine ⟨⟨hlist _ _ fun c => ?_, hlist _ _ fun s => ?_, hlist _ _ fun s => ?_,
      hlist _ _ fun e => ?_, by simp⟩, fun p _ => ?_⟩
    · simp [ColorToken.toJson, Rgb8.toJson, depth, depthOfFields]
    · cases h : s.letterSpacing <;> simp [TypographyToken.toJson, ifSome, depth, depthOfFields, h]
    · simp [SpacingToken.toJson, depth, depthOfFields]
    · simp [ShadowToken.toJson, depth, depthOfFields]
    · have hpages : depthOfItems (p.pageIds.map .string) = 0 :=
        Nat.le_zero.mp (depthOfItems_le (by simp [depth]))
      simp [Provenance.toJson, depth, depthOfFields, hpages]
  have hdepth : t.toJson.depth ≤ 4 := Nat.succ_le_succ (depthOfFields_le hfields)
  exact hdepth.trans (by decide)

/-- **The text of a token set is read as its JSON**, also where numbers are missing in it. -/
theorem read?_text (t : TokenSet) : read? t.text = some t.toJson :=
  read?_pretty_of_isRegular t.isRegular_toJson t.depth_toJson_le

/-- **A `null` stands for each number that is not finite**, and for nothing else. -/
theorem isFilled_toJson_iff : t.toJson.IsFilled ↔ AllFinite t.numbers := by
  cases h : t.provenance <;>
    simp [toJson, numbers, ifSome, h, allFinite_append, allFinite_flatMap,
      ColorToken.isFilled_toJson_iff, TypographyToken.isFilled_toJson_iff,
      SpacingToken.isFilled_toJson_iff, ShadowToken.isFilled_toJson_iff,
      Provenance.isFilled_toJson]

end TokenSet

/-! ### Numbers that are required -/

theorem ColorToken.allFinite_of_read {t t' : ColorToken} (h : ofJson? t.toJson = some t') :
    AllFinite t.numbers := by
  unfold ofJson? at h
  simp only [↓bind_eq_some_iff] at h
  obtain ⟨fields, hfields, -, -, -, -, -, -, opacity, hopacity, -⟩ := h
  cases hfields
  refine allFinite_singleton.mpr (isFinite_of_required_ofBinary64 ?_ hopacity)
  simp [List.lookup_cons]

theorem TypographyToken.allFinite_of_read {t t' : TypographyToken} (h : ofJson? t.toJson = some t')
    (hletters : AllFinite t.letterSpacing.toList) : AllFinite t.numbers := by
  unfold ofJson? at h
  simp only [↓bind_eq_some_iff] at h
  obtain ⟨fields, hfields, -, -, -, -, size, hsize, -, -, height, hheight, -⟩ := h
  cases hfields
  refine allFinite_append.mpr ⟨allFinite_cons.mpr ⟨?_, allFinite_singleton.mpr ?_⟩, hletters⟩
  · refine isFinite_of_required_ofBinary64 ?_ hsize
    simp [List.lookup_cons]
  · refine isFinite_of_required_ofBinary64 ?_ hheight
    simp [List.lookup_cons]

theorem SpacingToken.allFinite_of_read {t t' : SpacingToken} (h : ofJson? t.toJson = some t') :
    AllFinite t.numbers := by
  unfold ofJson? at h
  simp only [↓bind_eq_some_iff] at h
  obtain ⟨fields, hfields, -, -, value, hvalue, -⟩ := h
  cases hfields
  refine allFinite_singleton.mpr (isFinite_of_required_ofBinary64 ?_ hvalue)
  simp [List.lookup_cons]

theorem ShadowToken.allFinite_of_read {t t' : ShadowToken} (h : ofJson? t.toJson = some t') :
    AllFinite t.numbers := by
  unfold ofJson? at h
  simp only [↓bind_eq_some_iff] at h
  obtain ⟨fields, hfields, -, -, -, -, -, -, x, hx, y, hy, blur, hblur, spread, hspread, -, -,
    opacity, hopacity, -⟩ := h
  cases hfields
  simp only [numbers, allFinite_cons]
  refine ⟨isFinite_of_required_ofBinary64 ?_ hx, isFinite_of_required_ofBinary64 ?_ hy,
    isFinite_of_required_ofBinary64 ?_ hblur, isFinite_of_required_ofBinary64 ?_ hspread,
    isFinite_of_required_ofBinary64 ?_ hopacity, allFinite_nil⟩
  all_goals simp [List.lookup_cons]

namespace TokenSet

variable {t : TokenSet}

theorem allFinite_of_read {t' : TokenSet} (h : ofJson? t.toJson = some t')
    (hletters : ∀ s ∈ t.typography, AllFinite s.letterSpacing.toList) : AllFinite t.numbers := by
  unfold ofJson? at h
  simp only [↓bind_eq_some_iff] at h
  obtain ⟨fields, hfields, _, hcolors, _, htypography, _, hspacing, _, heffects, -⟩ := h
  cases hfields
  have hcolor : ∀ c ∈ t.colors, ∃ c', ColorToken.ofJson? c.toJson = some c' :=
    exists_of_required_list (by simp) hcolors
  have hstyle : ∀ s ∈ t.typography, ∃ s', TypographyToken.ofJson? s.toJson = some s' :=
    exists_of_required_list (by simp [List.lookup_cons]) htypography
  have hvalue : ∀ s ∈ t.spacing, ∃ s', SpacingToken.ofJson? s.toJson = some s' :=
    exists_of_required_list (by simp [List.lookup_cons]) hspacing
  have hshadow : ∀ e ∈ t.effects, ∃ e', ShadowToken.ofJson? e.toJson = some e' :=
    exists_of_required_list (by simp [List.lookup_cons]) heffects
  simp only [numbers, allFinite_append, allFinite_flatMap]
  exact ⟨⟨⟨fun c hc => (hcolor c hc).elim fun _ => ColorToken.allFinite_of_read,
    fun s hs => (hstyle s hs).elim fun _ hread =>
      TypographyToken.allFinite_of_read hread (hletters s hs)⟩,
    fun s hs => (hvalue s hs).elim fun _ => SpacingToken.allFinite_of_read⟩,
    fun e he => (hshadow e he).elim fun _ => ShadowToken.allFinite_of_read⟩

/-- **A token set is read back exactly where its numbers are finite**, provided that those that are
not required are. -/
theorem exists_read_iff (hletters : ∀ s ∈ t.typography, AllFinite s.letterSpacing.toList) :
    (∃ t', (read? t.text).bind ofJson? = some t') ↔ AllFinite t.numbers := by
  rw [read?_text, Option.bind_some]
  exact ⟨fun ⟨_, h⟩ => allFinite_of_read h hletters, fun h => ⟨t, (roundTrips h).read⟩⟩

end TokenSet

end Handoff
