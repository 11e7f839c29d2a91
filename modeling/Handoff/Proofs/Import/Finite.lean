import Handoff.Import.Export
import Handoff.Proofs.Json.Pretty
import Handoff.Proofs.Scene.Json

/-!
# Numbers of exports

The reader of JSON refuses numbers beyond the range of double precision, and it
takes no integer for one of 64 bits that is none. So whatever text is read, the
value is in range (`inRange_read?`), and no export that is loaded has a number that
is not finite (`allFinite_load`).
-/

namespace Handoff

namespace Json

open Handoff.Parser

theorem inRange_ofInteger (negative : Bool) (n : Nat) :
    (∃ x, ofInteger negative n = .float x) ∨ InRange (ofInteger negative n) := by
  unfold ofInteger
  split_ifs with hsign hzero hmin hmax
  · exact .inl ⟨_, rfl⟩
  · exact .inr (.integer (by omega) (by omega))
  · exact .inl ⟨_, rfl⟩
  · exact .inr (.integer (by omega) (by omega))
  · exact .inl ⟨_, rfl⟩

theorem gives_number : Gives number InRange := by
  unfold number
  refine (gives_any _).bind fun sign _ => (gives_any _).bind fun whole _ =>
    (gives_any _).bind fun fraction _ => (gives_any _).bind fun power _ => ?_
  dsimp only
  generalize hvalue : (if fraction.isNone && power.isNone then _ else _ : Json) = value
  have hcases : (∃ x, value = .float x) ∨ InRange value := by
    rw [← hvalue]
    split
    · exact inRange_ofInteger _ _
    · exact .inl ⟨_, rfl⟩
  split
  · next x =>
    split
    · next hx => exact gives_pure (.float hx)
    · exact gives_failure
  · next hfloat =>
    rcases hcases with ⟨x, hx⟩ | hrange
    · exact absurd hx (hfloat x)
    · exact gives_pure hrange

theorem gives_scalar : Gives scalar InRange := by
  have hstring : Gives (Json.string <$> stringLiteral) InRange :=
    (gives_any _).map fun s _ => .string s
  have hword : ∀ (word : List Char) {v : Json}, InRange v → Gives (text word *> pure v) InRange :=
    fun word _ hv => (gives_pure hv).seqRight _
  exact hstring.orElse (gives_number.orElse ((hword _ (.bool true)).orElse
    ((hword _ (.bool false)).orElse (hword _ .null))))

theorem gives_enclosed {α : Type} {part : Parser α} {P : α → Prop} (hpart : Gives part P)
    (opening closing : Char) : Gives (enclosed opening closing part) fun xs => ∀ x ∈ xs, P x := by
  unfold enclosed
  refine (gives_any _).bind fun _ _ => (gives_any _).bind fun _ _ =>
    ((hpart.seqLeft blanks).sepBy1 _).option.bind fun parts hparts =>
    (gives_any _).bind fun _ _ => gives_pure ?_
  cases parts with
  | none => simp
  | some xs => exact hparts xs rfl

theorem inRange_insert {name : String} {v : Json} {fields : Fields} (hv : InRange v)
    (hfields : ∀ f ∈ fields, InRange f.2) : ∀ f ∈ Fields.insert name v fields, InRange f.2 := by
  induction fields with
  | nil => exact List.forall_mem_singleton.mpr hv
  | cons field more ih =>
    obtain ⟨hfield, hmore⟩ := List.forall_mem_cons.mp hfields
    rw [Fields.insert]
    split
    · exact List.forall_mem_cons.mpr ⟨hv, hmore⟩
    · exact List.forall_mem_cons.mpr ⟨hfield, ih hmore⟩

theorem inRange_ofFields {fields : Fields} (hfields : ∀ f ∈ fields, InRange f.2) :
    InRange (ofFields fields) := by
  have hfold : ∀ sofar : Fields, (∀ f ∈ sofar, InRange f.2) →
      ∀ f ∈ fields.foldl (fun sofar f => Fields.insert f.1 f.2 sofar) sofar, InRange f.2 := by
    induction fields with
    | nil => exact fun _ hsofar => hsofar
    | cons field more ih =>
      obtain ⟨hfield, hmore⟩ := List.forall_mem_cons.mp hfields
      exact fun sofar hsofar => ih hmore _ (inRange_insert hfield hsofar)
  rw [ofFields_eq_foldl]
  exact .object (hfold [] (by simp))

theorem gives_field {depth : Nat} (h : Gives (value depth) InRange) :
    Gives (field depth) fun f => InRange f.2 :=
  (gives_any _).bind fun _ _ => (gives_any _).bind fun _ _ => (gives_any _).bind fun _ _ =>
    (gives_any _).bind fun _ _ => h.bind fun _ hv => gives_pure hv

theorem gives_value (depth : Nat) : Gives (value depth) InRange := by
  induction depth with
  | zero => exact gives_scalar
  | succ depth ih =>
    rw [value_succ]
    have harray := (gives_enclosed ih '[' ']').map fun _ => InRange.array
    have hobject := (gives_enclosed (gives_field ih) '\x7b' '\x7d').map fun _ => inRange_ofFields
    exact harray.orElse (hobject.orElse gives_scalar)

/-- **Whatever is read is in range.** -/
theorem inRange_read? {s : String} {v : Json} (h : read? s = some v) : InRange v :=
  (((gives_value _).seqRight _).seqLeft _).of_run h

end Json

theorem Node.allFinite_of_mem_children {n : Node} (h : AllFinite n.numbers) :
    ∀ m ∈ n.children, AllFinite (Node.numbers m) := by
  obtain ⟨l, children⟩ := n
  rw [numbers, Tree.values, Tree.valuesAll_eq_flatMap, List.flatMap_cons, List.flatMap_assoc,
    allFinite_append] at h
  exact allFinite_flatMap.mp h.2

namespace Export

/-- **The numbers of an export are finite**, whatever text it is loaded from. -/
theorem allFinite_load {text : String} {e : Export} (h : load text = .ok e) :
    ∀ n ∈ e.roots, AllFinite (Node.numbers n) := by
  unfold load at h
  split at h
  · next loaded hloaded =>
    cases h
    obtain ⟨v, hv, hexport⟩ := Option.bind_eq_some_iff.mp hloaded
    have hrange := Json.inRange_read? hv
    unfold ofJson? at hexport
    split at hexport
    · obtain ⟨d, hd, rfl⟩ := Option.map_eq_some_iff.mp hexport
      exact Node.allFinite_of_mem_children (Document.readsFinite v d hrange hd)
    · obtain ⟨n, hn, rfl⟩ := Option.map_eq_some_iff.mp hexport
      exact List.forall_mem_singleton.mpr (Node.readsFinite v n hrange hn)
  · cases h

end Export

end Handoff
