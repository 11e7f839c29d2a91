import Handoff.Proofs.Scene.Json

/-!
# Kinds that are not known

Reading takes a name that no vocabulary holds for the kind `UNKNOWN`. To say this
of whole designs, the names that stand under `type` in a value are read on their
own, for a layer, its paints and its effects and so on down the tree
(`Node.kindNames?`). A node that is read from a value has the kinds that are given
there, as far as they are known (`Node.exists_kindNames`), and it is written with
the names of its kinds (`Node.kindNames?_toJson`). In everything else writing and
reading again changes nothing (`design_reads_back`).
-/

namespace Handoff

open Json

/-! ### Kinds that are read -/

/-- The names of the kinds of a layer, of its paints and of its effects. -/
structure KindNames where
  /-- The name of the kind of the layer. -/
  layer : String
  /-- Those of its fills. -/
  fills : List String
  /-- Those of its strokes. -/
  strokes : List String
  /-- Those of its effects. -/
  effects : List String

namespace KindNames

/-- The names as far as they are known. -/
def known (k : KindNames) : KindNames where
  layer := knownName LayerKind.all LayerKind.name k.layer
  fills := k.fills.map (knownName PaintKind.all PaintKind.name)
  strokes := k.strokes.map (knownName PaintKind.all PaintKind.name)
  effects := k.effects.map (knownName EffectKind.all EffectKind.name)

/-- The name of the kind that is given in a paint or an effect. -/
def given? (names : List String) (v : Json) : Option String := do
  let fields ← record? names v
  fields.required "type" constant?

/-- The names of the kinds that are given in the record of a layer. -/
def ofFields? (fields : Fields) : Option KindNames := do
  return {
    layer := ← fields.required "type" constant?
    fills := ← fields.orDefault "fills" (list? (given? Paint.fieldNames)) []
    strokes := ← fields.orDefault "strokes" (list? (given? Paint.fieldNames)) []
    effects := ← fields.orDefault "effects" (list? (given? Effect.fieldNames)) [] }

end KindNames

/-- The names of the kinds of a layer. -/
def Layer.kindNames (l : Layer) : KindNames where
  layer := l.kind.name
  fills := l.fills.map (·.kind.name)
  strokes := l.strokes.map (·.kind.name)
  effects := l.effects.map (·.kind.name)

/-- The names of the kinds that are given in a layer and in the layers inside it. -/
def Node.kindNames? (v : Json) : Option (Tree KindNames) :=
  Tree.ofJson? Layer.fieldNames KindNames.ofFields? v

/-- The names of the kinds that are given in a document. -/
def Document.kindNames? (v : Json) : Option (Tree KindNames) := do
  let fields ← record? fieldNames v
  fields.required "document" Node.kindNames?

theorem Paint.exists_given (v : Json) (p : Paint) (h : ofJson? v = some p) :
    ∃ given, KindNames.given? fieldNames v = some given
      ∧ p.kind.name = knownName PaintKind.all PaintKind.name given := by
  unfold ofJson? at h
  simp only [↓bind_eq_some_iff] at h
  obtain ⟨fields, hfields, kind, hkind, visible, -, opacity, -, color, -, imageRef, -, hp⟩ := h
  cases hp
  obtain ⟨given, hgiven, hname⟩ := exists_required (fun v k => exists_name_of_oneOfOr rfl) hkind
  exact ⟨given, bind_eq_some_iff.mpr ⟨fields, hfields, hgiven⟩, hname⟩

theorem Effect.exists_given (v : Json) (e : Effect) (h : ofJson? v = some e) :
    ∃ given, KindNames.given? fieldNames v = some given
      ∧ e.kind.name = knownName EffectKind.all EffectKind.name given := by
  unfold ofJson? at h
  simp only [↓bind_eq_some_iff] at h
  obtain ⟨fields, hfields, kind, hkind, visible, -, radius, -, spread, -, color, -, offset, -, he⟩ :=
    h
  cases he
  obtain ⟨given, hgiven, hname⟩ := exists_required (fun v k => exists_name_of_oneOfOr rfl) hkind
  exact ⟨given, bind_eq_some_iff.mpr ⟨fields, hfields, hgiven⟩, hname⟩

/-- A layer has the kinds that are given in its record, as far as they are known. -/
theorem Layer.exists_kindNames (fields : Fields) (l : Layer) (h : ofFields? fields = some l) :
    ∃ given, KindNames.ofFields? fields = some given ∧ l.kindNames = given.known := by
  unfold ofFields? at h
  simp only [↓bind_eq_some_iff] at h
  obtain ⟨id, -, name, -, kind, hkind, visible, -, bounds, -, fills, hfills, strokes, hstrokes,
    weight, -, effects, heffects, radius, -, mode, -, primary, -, counter, -, spacing, -, top, -,
    right, -, bottom, -, left, -, horizontal, -, vertical, -, characters, -, style, -, hl⟩ := h
  cases hl
  obtain ⟨layer', hlayer, hname⟩ := exists_required (fun v k => exists_name_of_oneOfOr rfl) hkind
  obtain ⟨fills', hfills, hfillNames⟩ := exists_orDefault_list Paint.exists_given hfills
  obtain ⟨strokes', hstrokes, hstrokeNames⟩ := exists_orDefault_list Paint.exists_given hstrokes
  obtain ⟨effects', heffects, heffectNames⟩ := exists_orDefault_list Effect.exists_given heffects
  refine ⟨⟨layer', fills', strokes', effects'⟩, ?_, ?_⟩
  · unfold KindNames.ofFields?
    simp only [↓bind_eq_some_iff]
    exact ⟨_, hlayer, _, hfills, _, hstrokes, _, heffects, rfl⟩
  · rw [kindNames, KindNames.known, hname, hfillNames, hstrokeNames, heffectNames]

/-! ### Kinds that are written -/

theorem Paint.given?_toJson (p : Paint) : KindNames.given? fieldNames p.toJson = some p.kind.name := by
  unfold KindNames.given?
  refine bind_eq_some_iff.mpr ⟨_, rfl, required_of_lookup ?_ (roundTrips_constant _)⟩
  simp

theorem Effect.given?_toJson (e : Effect) :
    KindNames.given? fieldNames e.toJson = some e.kind.name := by
  unfold KindNames.given?
  refine bind_eq_some_iff.mpr ⟨_, rfl, required_of_lookup ?_ (roundTrips_constant _)⟩
  simp

/-- A layer is written with the names of its kinds. -/
theorem Layer.kindNames_toFields (l : Layer) {α : Type} (write : α → Json) (children : List α) :
    KindNames.ofFields? (l.toFields ++ ifAny "children" write children) = some l.kindNames := by
  unfold KindNames.ofFields?
  simp only [↓bind_eq_some_iff]
  refine ⟨_, required_of_lookup ?_ (roundTrips_constant l.kind.name),
    _, orDefault_list_of_lookup ?_ fun p _ => Paint.given?_toJson p,
    _, orDefault_list_of_lookup ?_ fun p _ => Paint.given?_toJson p,
    _, orDefault_list_of_lookup ?_ fun e _ => Effect.given?_toJson e, rfl⟩
  all_goals
    unfold toFields
    simp [List.lookup_append, List.lookup_cons]

theorem Node.kindNames?_toJson (n : Node) :
    kindNames? n.toJson = some (n.map Layer.kindNames) :=
  Tree.ofJson?_toJson Layer.lookup_children fun l _ _ => l.kindNames_toFields _ _

/-- A node has the kinds that are given, as far as they are known, and is written with them. -/
theorem Node.exists_kindNames (v : Json) (n : Node) (h : ofJson? v = some n) :
    ∃ given, kindNames? v = some given ∧ n.map Layer.kindNames = given.map KindNames.known :=
  Tree.map_ofJson? Layer.exists_kindNames h

theorem Document.kindNames?_toJson (d : Document) :
    kindNames? d.toJson = some (d.root.map Layer.kindNames) := by
  unfold kindNames?
  refine bind_eq_some_iff.mpr ⟨_, rfl, ?_⟩
  refine Option.bind_eq_some_iff.mpr ⟨_, ?_, Node.kindNames?_toJson d.root⟩
  simp [List.lookup_cons]

theorem Document.exists_kindNames (v : Json) (d : Document) (h : ofJson? v = some d) :
    ∃ given, kindNames? v = some given
      ∧ d.root.map Layer.kindNames = given.map KindNames.known := by
  unfold ofJson? at h
  simp only [↓bind_eq_some_iff] at h
  obtain ⟨fields, hfields, name, -, version, -, modified, -, root, hroot, hd⟩ := h
  cases hd
  obtain ⟨given, hgiven, hkinds⟩ := exists_required Node.exists_kindNames hroot
  exact ⟨given, bind_eq_some_iff.mpr ⟨fields, hfields, hgiven⟩, hkinds⟩

/--
**Designs are read back.** A node or a document with finite numbers is read back from what is written
for it. Whatever is read has finite numbers, so that writing and reading it again changes nothing. Its
kinds are those that the value gives, except that unknown names become `UNKNOWN`, and these kinds are
written for it.
-/
theorem design_reads_back :
    (∀ n : Node, AllFinite n.numbers → Node.ofJson? n.toJson = some n)
      ∧ (∀ d : Document, AllFinite d.numbers → Document.ofJson? d.toJson = some d)
      ∧ (∀ v n, InRange v → Node.ofJson? v = some n → Node.ofJson? n.toJson = some n
        ∧ ∃ given, Node.kindNames? v = some given
          ∧ n.map Layer.kindNames = given.map KindNames.known
          ∧ Node.kindNames? n.toJson = some (given.map KindNames.known))
      ∧ ∀ v d, InRange v → Document.ofJson? v = some d → Document.ofJson? d.toJson = some d
        ∧ ∃ given, Document.kindNames? v = some given
          ∧ d.root.map Layer.kindNames = given.map KindNames.known
          ∧ Document.kindNames? d.toJson = some (given.map KindNames.known) := by
  refine ⟨fun n hn => (Node.roundTrips hn).read, fun d hd => (Document.roundTrips hd).read, ?_, ?_⟩
  · intro v n hv h
    obtain ⟨given, hgiven, hkinds⟩ := Node.exists_kindNames v n h
    refine ⟨(Node.roundTrips (Node.readsFinite v n hv h)).read, given, hgiven, hkinds, ?_⟩
    rw [← hkinds]
    exact n.kindNames?_toJson
  · intro v d hv h
    obtain ⟨given, hgiven, hkinds⟩ := Document.exists_kindNames v d h
    refine ⟨(Document.roundTrips (Document.readsFinite v d hv h)).read, given, hgiven, hkinds, ?_⟩
    rw [← hkinds]
    exact d.kindNames?_toJson

/-- A document with a layer, a paint and an effect of kinds that are not known. -/
theorem design_reads_back_sticky :
    let fills : Json := .array [.object [("type", .string "SOLID"), ("opacity", .integer 1)],
      .object [("type", .string "PATTERN"), ("visible", .null)]]
    let effects : Json := .array [.object [("type", .string "NOISE"), ("radius", .float 2.5)]]
    let root : Json := .object [("id", .string "0:0"), ("type", .string "DOCUMENT"),
      ("children", .array [.object [("id", .string "1:2"), ("type", .string "STICKY"),
        ("fills", fills), ("effects", effects)]])]
    let v : Json := .object [("document", root)]
    let kinds : Tree KindNames := ⟨⟨"DOCUMENT", [], [], []⟩,
      [.leaf ⟨"UNKNOWN", ["SOLID", "UNKNOWN"], [], ["UNKNOWN"]⟩]⟩
    InRange v ∧ ∃ d, Document.ofJson? v = some d ∧ AllFinite d.numbers
      ∧ Document.ofJson? d.toJson = some d ∧ Document.kindNames? d.toJson = some kinds
      ∧ Node.ofJson? root = some d.root ∧ Node.ofJson? d.root.toJson = some d.root
      ∧ Node.kindNames? d.root.toJson = some kinds := by
  intro fills effects root v kinds
  have hradius : (2.5 : Binary64).isFinite = true := by decide +kernel
  have hroot : InRange root := by simp [root, fills, effects, hradius]
  have hv : InRange v := inRange_object_iff.mpr (List.forall_mem_singleton.mpr hroot)
  obtain ⟨d, hd⟩ : ∃ d, Document.ofJson? v = some d :=
    Option.isSome_iff_exists.mp (by decide +kernel)
  have hread : Node.ofJson? root = some d.root := by
    unfold Document.ofJson? at hd
    simp only [↓bind_eq_some_iff] at hd
    obtain ⟨fields, hfields, name, -, version, -, modified, -, n, hn, hd⟩ := hd
    cases hd
    cases hfields
    exact hn
  obtain ⟨hnodes, hdocuments, hnodeValues, hdocumentValues⟩ := design_reads_back
  have hfinite : AllFinite d.numbers := Document.readsFinite v d hv hd
  obtain ⟨-, given, hgiven, -, hkinds⟩ := hdocumentValues v d hv hd
  obtain ⟨-, given', hgiven', -, hkinds'⟩ := hnodeValues root d.root hroot hread
  have hknown : given.map KindNames.known = kinds := by
    cases hgiven
    rfl
  have hknown' : given'.map KindNames.known = kinds := by
    cases hgiven'
    rfl
  exact ⟨hv, d, hd, hfinite, hdocuments d hfinite, hknown ▸ hkinds, hread, hnodes d.root hfinite,
    hknown' ▸ hkinds'⟩

end Handoff
