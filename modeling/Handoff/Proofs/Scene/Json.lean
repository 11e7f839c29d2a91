import Handoff.Proofs.Json.Nested
import Handoff.Scene.Json

/-!
# Designs written and read back

A layer is written as a record that leaves out what it does not have. Each record
is read back field by field: what is written for a field is found under its name
and is read as the value of the field, and a name that is left out is read as the
value that was left out. So nodes and documents whose numbers are finite are read
back (`Node.roundTrips`, `Document.roundTrips`). The numbers of those that are read
from a value in range are finite (`Node.readsFinite`, `Document.readsFinite`).
-/

namespace Handoff

open Json

/-! ### Vocabularies -/

theorem LayerKind.foundByName : FoundByName all name := by
  intro k
  cases k <;> rfl

theorem PaintKind.foundByName : FoundByName all name := by
  intro k
  cases k <;> rfl

theorem EffectKind.foundByName : FoundByName all name := by
  intro k
  cases k <;> rfl

theorem LayoutMode.foundByName : FoundByName all name := by
  intro m
  cases m <;> rfl

theorem PrimaryAlignment.foundByName : FoundByName all name := by
  intro a
  cases a <;> rfl

theorem CounterAlignment.foundByName : FoundByName all name := by
  intro a
  cases a <;> rfl

theorem Sizing.foundByName : FoundByName all name := by
  intro s
  cases s <;> rfl

theorem LineAlignment.foundByName : FoundByName all name := by
  intro a
  cases a <;> rfl

/-! ### Records written and read back -/

theorem Color.roundTrips {c : Color} (hc : AllFinite c.numbers) : RoundTrips ofJson? toJson c := by
  refine ⟨?_, Json.noConfusion⟩
  simp only [numbers, allFinite_cons] at hc
  obtain ⟨hr, hg, hb, ha, -⟩ := hc
  unfold ofJson?
  simp only [↓bind_eq_some_iff]
  refine ⟨_, rfl,
    c.r, required_of_lookup ?_ (roundTrips_number hr),
    c.g, required_of_lookup ?_ (roundTrips_number hg),
    c.b, required_of_lookup ?_ (roundTrips_number hb),
    c.a, orDefault_of_lookup ?_ (roundTrips_number ha), rfl⟩
  all_goals simp [List.lookup_cons]

theorem Bounds.roundTrips {b : Bounds} (hb : AllFinite b.numbers) : RoundTrips ofJson? toJson b := by
  refine ⟨?_, Json.noConfusion⟩
  simp only [numbers, allFinite_cons] at hb
  obtain ⟨hx, hy, hwidth, hheight, -⟩ := hb
  unfold ofJson?
  simp only [↓bind_eq_some_iff]
  refine ⟨_, rfl,
    b.x, required_of_lookup ?_ (roundTrips_number hx),
    b.y, required_of_lookup ?_ (roundTrips_number hy),
    b.width, required_of_lookup ?_ (roundTrips_number hwidth),
    b.height, required_of_lookup ?_ (roundTrips_number hheight), rfl⟩
  all_goals simp [List.lookup_cons]

theorem Offset.roundTrips {o : Offset} (ho : AllFinite o.numbers) : RoundTrips ofJson? toJson o := by
  refine ⟨?_, Json.noConfusion⟩
  simp only [numbers, allFinite_cons] at ho
  obtain ⟨hx, hy, -⟩ := ho
  unfold ofJson?
  simp only [↓bind_eq_some_iff]
  refine ⟨_, rfl,
    o.x, required_of_lookup ?_ (roundTrips_number hx),
    o.y, required_of_lookup ?_ (roundTrips_number hy), rfl⟩
  all_goals simp [List.lookup_cons]

theorem Paint.roundTrips {p : Paint} (hp : AllFinite p.numbers) : RoundTrips ofJson? toJson p := by
  refine ⟨?_, Json.noConfusion⟩
  simp only [numbers, allFinite_append, allFinite_toList, allFinite_flatMap,
    Option.mem_toList] at hp
  obtain ⟨hopacity, hcolor⟩ := hp
  unfold ofJson?
  simp only [↓bind_eq_some_iff]
  refine ⟨_, rfl,
    p.kind, required_of_lookup ?_ (PaintKind.foundByName.roundTrips_or _ _),
    p.visible, optional_of_lookup ?_ fun b _ => roundTrips_bool b,
    p.opacity, optional_of_lookup ?_ fun x hx => roundTrips_number (hopacity x hx),
    p.color, optional_of_lookup ?_ fun c hc => Color.roundTrips (hcolor c hc),
    p.imageRef, optional_of_lookup ?_ fun s _ => roundTrips_string s, rfl⟩
  all_goals simp [List.lookup_append, List.lookup_cons]

theorem Effect.roundTrips {e : Effect} (he : AllFinite e.numbers) : RoundTrips ofJson? toJson e := by
  refine ⟨?_, Json.noConfusion⟩
  simp only [numbers, allFinite_append, allFinite_toList, allFinite_flatMap,
    Option.mem_toList] at he
  obtain ⟨⟨⟨hradius, hspread⟩, hcolor⟩, hoffset⟩ := he
  unfold ofJson?
  simp only [↓bind_eq_some_iff]
  refine ⟨_, rfl,
    e.kind, required_of_lookup ?_ (EffectKind.foundByName.roundTrips_or _ _),
    e.visible, optional_of_lookup ?_ fun b _ => roundTrips_bool b,
    e.radius, optional_of_lookup ?_ fun x hx => roundTrips_number (hradius x hx),
    e.spread, optional_of_lookup ?_ fun x hx => roundTrips_number (hspread x hx),
    e.color, optional_of_lookup ?_ fun c hc => Color.roundTrips (hcolor c hc),
    e.offset, optional_of_lookup ?_ fun o ho => Offset.roundTrips (hoffset o ho), rfl⟩
  all_goals simp [List.lookup_append, List.lookup_cons]

theorem TextStyle.roundTrips {s : TextStyle} (hs : AllFinite s.numbers) :
    RoundTrips ofJson? toJson s := by
  refine ⟨?_, Json.noConfusion⟩
  simp only [numbers, allFinite_append, allFinite_toList] at hs
  obtain ⟨⟨⟨hsize, hweight⟩, hheight⟩, hspacing⟩ := hs
  unfold ofJson?
  simp only [↓bind_eq_some_iff]
  refine ⟨_, rfl,
    s.fontFamily, optional_of_lookup ?_ fun f _ => roundTrips_string f,
    s.fontSize, optional_of_lookup ?_ fun x hx => roundTrips_number (hsize x hx),
    s.fontWeight, optional_of_lookup ?_ fun x hx => roundTrips_number (hweight x hx),
    s.lineHeight, optional_of_lookup ?_ fun x hx => roundTrips_number (hheight x hx),
    s.letterSpacing, optional_of_lookup ?_ fun x hx => roundTrips_number (hspacing x hx),
    s.alignment, optional_of_lookup ?_ fun a _ => LineAlignment.foundByName.roundTrips a, rfl⟩
  all_goals simp [List.lookup_append]

/-- The record of a layer is read back, also where layers inside it stand behind. -/
theorem Layer.ofFields?_toFields {l : Layer} (hl : AllFinite l.numbers) {α : Type}
    (write : α → Json) (children : List α) :
    ofFields? (l.toFields ++ ifAny "children" write children) = some l := by
  simp only [numbers, allFinite_append, allFinite_toList, allFinite_flatMap,
    Option.mem_toList] at hl
  obtain ⟨⟨⟨⟨⟨⟨⟨⟨⟨⟨⟨hbounds, hfills⟩, hstrokes⟩, hweight⟩, heffects⟩, hradius⟩, hspacing⟩,
    htop⟩, hright⟩, hbottom⟩, hleft⟩, hstyle⟩ := hl
  unfold ofFields?
  simp only [↓bind_eq_some_iff]
  refine ⟨
    l.id, required_of_lookup ?_ (roundTrips_string _),
    l.name, orDefault_of_lookup ?_ (roundTrips_string _),
    l.kind, required_of_lookup ?_ (LayerKind.foundByName.roundTrips_or _ _),
    l.visible, optional_of_lookup ?_ fun b _ => roundTrips_bool b,
    l.bounds, optional_of_lookup ?_ fun b hb => Bounds.roundTrips (hbounds b hb),
    l.fills, orDefault_ifAny_of_lookup ?_ fun p hp => Paint.roundTrips (hfills p hp),
    l.strokes, orDefault_ifAny_of_lookup ?_ fun p hp => Paint.roundTrips (hstrokes p hp),
    l.strokeWeight, optional_of_lookup ?_ fun x hx => roundTrips_number (hweight x hx),
    l.effects, orDefault_ifAny_of_lookup ?_ fun e he => Effect.roundTrips (heffects e he),
    l.cornerRadius, optional_of_lookup ?_ fun x hx => roundTrips_number (hradius x hx),
    l.layoutMode, optional_of_lookup ?_ fun m _ => LayoutMode.foundByName.roundTrips m,
    l.primaryAlignment, optional_of_lookup ?_ fun a _ => PrimaryAlignment.foundByName.roundTrips a,
    l.counterAlignment, optional_of_lookup ?_ fun a _ => CounterAlignment.foundByName.roundTrips a,
    l.itemSpacing, optional_of_lookup ?_ fun x hx => roundTrips_number (hspacing x hx),
    l.paddingTop, optional_of_lookup ?_ fun x hx => roundTrips_number (htop x hx),
    l.paddingRight, optional_of_lookup ?_ fun x hx => roundTrips_number (hright x hx),
    l.paddingBottom, optional_of_lookup ?_ fun x hx => roundTrips_number (hbottom x hx),
    l.paddingLeft, optional_of_lookup ?_ fun x hx => roundTrips_number (hleft x hx),
    l.horizontalSizing, optional_of_lookup ?_ fun s _ => Sizing.foundByName.roundTrips s,
    l.verticalSizing, optional_of_lookup ?_ fun s _ => Sizing.foundByName.roundTrips s,
    l.characters, optional_of_lookup ?_ fun s _ => roundTrips_string s,
    l.style, optional_of_lookup ?_ fun s hs => TextStyle.roundTrips (hstyle s hs), rfl⟩
  all_goals
    unfold toFields
    simp [List.lookup_append, List.lookup_cons]

theorem Layer.lookup_children (l : Layer) : l.toFields.lookup "children" = none := by
  unfold toFields
  simp [List.lookup_append, List.lookup_cons]

theorem Node.roundTrips {n : Node} (hn : AllFinite n.numbers) : RoundTrips ofJson? toJson n :=
  Tree.roundTrips_tree Layer.lookup_children fun l hl _ =>
    Layer.ofFields?_toFields (allFinite_flatMap.mp hn l hl) _ _

theorem Document.roundTrips {d : Document} (hd : AllFinite d.numbers) :
    RoundTrips ofJson? toJson d := by
  refine ⟨?_, Json.noConfusion⟩
  unfold ofJson?
  simp only [↓bind_eq_some_iff]
  refine ⟨_, rfl,
    d.name, orDefault_of_lookup ?_ (roundTrips_string _),
    d.version, optional_of_lookup_getD ?_ fun s _ => roundTrips_string s,
    d.lastModified, optional_of_lookup_getD ?_ fun s _ => roundTrips_string s,
    d.root, required_of_lookup ?_ (Node.roundTrips hd), rfl⟩
  all_goals simp [List.lookup_cons]

/-! ### Numbers that are read -/

theorem Color.readsFinite : ReadsFinite ofJson? numbers := by
  intro v c hv h
  unfold ofJson? at h
  simp only [↓bind_eq_some_iff] at h
  obtain ⟨fields, hfields, r, hr, g, hg, b, hb, a, ha, hc⟩ := h
  cases hc
  have hin := inRange_record? hv hfields
  have hopaque : (1 : Binary64).isFinite = true := by decide +kernel
  simp only [numbers, allFinite_cons]
  exact ⟨isFinite_of_required hin hr, isFinite_of_required hin hg, isFinite_of_required hin hb,
    isFinite_of_orDefault hin ha hopaque, allFinite_nil⟩

theorem Bounds.readsFinite : ReadsFinite ofJson? numbers := by
  intro v b hv h
  unfold ofJson? at h
  simp only [↓bind_eq_some_iff] at h
  obtain ⟨fields, hfields, x, hx, y, hy, width, hwidth, height, hheight, hb⟩ := h
  cases hb
  have hin := inRange_record? hv hfields
  simp only [numbers, allFinite_cons]
  exact ⟨isFinite_of_required hin hx, isFinite_of_required hin hy,
    isFinite_of_required hin hwidth, isFinite_of_required hin hheight, allFinite_nil⟩

theorem Offset.readsFinite : ReadsFinite ofJson? numbers := by
  intro v o hv h
  unfold ofJson? at h
  simp only [↓bind_eq_some_iff] at h
  obtain ⟨fields, hfields, x, hx, y, hy, ho⟩ := h
  cases ho
  have hin := inRange_record? hv hfields
  simp only [numbers, allFinite_cons]
  exact ⟨isFinite_of_required hin hx, isFinite_of_required hin hy, allFinite_nil⟩

theorem Paint.readsFinite : ReadsFinite ofJson? numbers := by
  intro v p hv h
  unfold ofJson? at h
  simp only [↓bind_eq_some_iff] at h
  obtain ⟨fields, hfields, kind, -, visible, -, opacity, hopacity, color, hcolor, imageRef, -, hp⟩ :=
    h
  cases hp
  have hin := inRange_record? hv hfields
  simp only [numbers, allFinite_append, allFinite_toList, allFinite_flatMap, Option.mem_toList]
  exact ⟨isFinite_of_optional hin hopacity, Color.readsFinite.optional hin hcolor⟩

theorem Effect.readsFinite : ReadsFinite ofJson? numbers := by
  intro v e hv h
  unfold ofJson? at h
  simp only [↓bind_eq_some_iff] at h
  obtain ⟨fields, hfields, kind, -, visible, -, radius, hradius, spread, hspread, color, hcolor,
    offset, hoffset, he⟩ := h
  cases he
  have hin := inRange_record? hv hfields
  simp only [numbers, allFinite_append, allFinite_toList, allFinite_flatMap, Option.mem_toList]
  exact ⟨⟨⟨isFinite_of_optional hin hradius, isFinite_of_optional hin hspread⟩,
    Color.readsFinite.optional hin hcolor⟩, Offset.readsFinite.optional hin hoffset⟩

theorem TextStyle.readsFinite : ReadsFinite ofJson? numbers := by
  intro v s hv h
  unfold ofJson? at h
  simp only [↓bind_eq_some_iff] at h
  obtain ⟨fields, hfields, family, -, size, hsize, weight, hweight, height, hheight,
    spacing, hspacing, alignment, -, hs⟩ := h
  cases hs
  have hin := inRange_record? hv hfields
  simp only [numbers, allFinite_append, allFinite_toList]
  exact ⟨⟨⟨isFinite_of_optional hin hsize, isFinite_of_optional hin hweight⟩,
    isFinite_of_optional hin hheight⟩, isFinite_of_optional hin hspacing⟩

theorem Layer.allFinite_ofFields? {fields : Fields} {l : Layer} (hin : ∀ f ∈ fields, InRange f.2)
    (h : ofFields? fields = some l) : AllFinite l.numbers := by
  unfold ofFields? at h
  simp only [↓bind_eq_some_iff] at h
  obtain ⟨id, -, name, -, kind, -, visible, -, bounds, hbounds, fills, hfills, strokes, hstrokes,
    weight, hweight, effects, heffects, radius, hradius, mode, -, primary, -, counter, -,
    spacing, hspacing, top, htop, right, hright, bottom, hbottom, left, hleft, horizontal, -,
    vertical, -, characters, -, style, hstyle, hl⟩ := h
  cases hl
  simp only [numbers, allFinite_append, allFinite_toList, allFinite_flatMap, Option.mem_toList]
  exact ⟨⟨⟨⟨⟨⟨⟨⟨⟨⟨⟨Bounds.readsFinite.optional hin hbounds,
    allFinite_of_list Paint.readsFinite hin hfills⟩,
    allFinite_of_list Paint.readsFinite hin hstrokes⟩,
    isFinite_of_optional hin hweight⟩,
    allFinite_of_list Effect.readsFinite hin heffects⟩,
    isFinite_of_optional hin hradius⟩,
    isFinite_of_optional hin hspacing⟩,
    isFinite_of_optional hin htop⟩,
    isFinite_of_optional hin hright⟩,
    isFinite_of_optional hin hbottom⟩,
    isFinite_of_optional hin hleft⟩,
    TextStyle.readsFinite.optional hin hstyle⟩

theorem Node.readsFinite : ReadsFinite ofJson? numbers :=
  Tree.readsFinite_ofJson? fun _ _ => Layer.allFinite_ofFields?

theorem Document.readsFinite : ReadsFinite ofJson? numbers := by
  intro v d hv h
  unfold ofJson? at h
  simp only [↓bind_eq_some_iff] at h
  obtain ⟨fields, hfields, name, -, version, -, modified, -, root, hroot, hd⟩ := h
  cases hd
  exact Node.readsFinite.required (inRange_record? hv hfields) hroot

end Handoff
