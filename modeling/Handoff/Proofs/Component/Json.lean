import Handoff.Component.Json
import Handoff.Proofs.Json.Nested

/-!
# Components written and read back

A widget is written as a record that leaves out what it does not have, and a
placeholder has a flag that others do not have. Each attribute is read back from
its own record, and components are read back with all that is inside them
(`Component.roundTrips`).
-/

namespace Handoff

open Json

/-! ### Vocabularies -/

theorem WidgetKind.foundByName : FoundByName all name := by
  intro k
  cases k <;> rfl

theorem FlexDirection.foundByName : FoundByName all name := by
  intro d
  cases d <;> rfl

theorem Justification.foundByName : FoundByName all name := by
  intro j
  cases j <;> rfl

theorem ItemAlignment.foundByName : FoundByName all name := by
  intro a
  cases a <;> rfl

theorem TextAlignment.foundByName : FoundByName all name := by
  intro a
  cases a <;> rfl

/-! ### Attributes -/

theorem FlexLayout.roundTrips {l : FlexLayout} (hl : AllFinite l.numbers) :
    RoundTrips ofJson? toJson l := by
  refine ⟨?_, Json.noConfusion⟩
  have hgap := allFinite_toList.mp hl
  unfold ofJson?
  simp only [↓bind_eq_some_iff]
  refine ⟨_, rfl,
    l.direction, required_of_lookup ?_ (FlexDirection.foundByName.roundTrips _),
    l.justification, required_of_lookup ?_ (Justification.foundByName.roundTrips _),
    l.alignment, required_of_lookup ?_ (ItemAlignment.foundByName.roundTrips _),
    l.gap, optional_of_lookup ?_ fun x hx => roundTrips_number (hgap x hx), rfl⟩
  all_goals simp [List.lookup_cons]

theorem Dimension.roundTrips {d : Dimension} (hd : AllFinite d.numbers) :
    RoundTrips ofJson? toJson d := by
  cases d with
  | px size =>
    have hsize : (ofBinary64 size).number? = some size :=
      (roundTrips_number (allFinite_singleton.mp hd)).read
    refine ⟨?_, Json.noConfusion⟩
    rw [toJson, ofJson?, hsize, Option.map_some]
  | full => exact ⟨rfl, Json.noConfusion⟩

theorem Size.roundTrips {s : Size} (hs : AllFinite s.numbers) : RoundTrips ofJson? toJson s := by
  refine ⟨?_, Json.noConfusion⟩
  obtain ⟨hwidth, hheight⟩ := allFinite_append.mp hs
  unfold ofJson?
  simp only [↓bind_eq_some_iff]
  refine ⟨_, rfl,
    s.width, required_of_lookup ?_ (Dimension.roundTrips hwidth),
    s.height, required_of_lookup ?_ (Dimension.roundTrips hheight), rfl⟩
  all_goals simp [List.lookup_cons]

theorem Border.roundTrips {b : Border} (hb : AllFinite b.numbers) : RoundTrips ofJson? toJson b := by
  refine ⟨?_, Json.noConfusion⟩
  simp only [numbers, allFinite_append, allFinite_toList] at hb
  obtain ⟨hwidth, hradius⟩ := hb
  unfold ofJson?
  simp only [↓bind_eq_some_iff]
  refine ⟨_, rfl,
    b.width, optional_of_lookup ?_ fun x hx => roundTrips_number (hwidth x hx),
    b.radius, optional_of_lookup ?_ fun x hx => roundTrips_number (hradius x hx),
    b.color, optional_of_lookup ?_ fun s _ => roundTrips_string s, rfl⟩
  all_goals simp [List.lookup_append]

theorem Padding.roundTrips {p : Padding} (hp : AllFinite p.numbers) :
    RoundTrips ofJson? toJson p := by
  refine ⟨?_, Json.noConfusion⟩
  simp only [numbers, allFinite_cons] at hp
  obtain ⟨htop, hright, hbottom, hleft, -⟩ := hp
  unfold ofJson?
  simp only [↓bind_eq_some_iff]
  refine ⟨_, rfl,
    p.top, required_of_lookup ?_ (roundTrips_number htop),
    p.right, required_of_lookup ?_ (roundTrips_number hright),
    p.bottom, required_of_lookup ?_ (roundTrips_number hbottom),
    p.left, required_of_lookup ?_ (roundTrips_number hleft), rfl⟩
  all_goals simp [List.lookup_cons]

theorem Typography.roundTrips {t : Typography} (ht : AllFinite t.numbers) :
    RoundTrips ofJson? toJson t := by
  refine ⟨?_, Json.noConfusion⟩
  simp only [numbers, allFinite_append, allFinite_toList] at ht
  obtain ⟨⟨hsize, hheight⟩, hspacing⟩ := ht
  unfold ofJson?
  simp only [↓bind_eq_some_iff]
  refine ⟨_, rfl,
    t.fontSize, optional_of_lookup ?_ fun x hx => roundTrips_number (hsize x hx),
    t.fontWeight, optional_of_lookup ?_ fun s _ => roundTrips_string s,
    t.fontFamily, optional_of_lookup ?_ fun s _ => roundTrips_string s,
    t.lineHeight, optional_of_lookup ?_ fun x hx => roundTrips_number (hheight x hx),
    t.letterSpacing, optional_of_lookup ?_ fun x hx => roundTrips_number (hspacing x hx),
    t.alignment, required_of_lookup ?_ (TextAlignment.foundByName.roundTrips _),
    t.color, optional_of_lookup ?_ fun s _ => roundTrips_string s, rfl⟩
  all_goals simp [List.lookup_append, List.lookup_cons]

theorem Shadow.roundTrips {s : Shadow} (hs : AllFinite s.numbers) : RoundTrips ofJson? toJson s := by
  refine ⟨?_, Json.noConfusion⟩
  simp only [numbers, allFinite_cons] at hs
  obtain ⟨hx, hy, hopacity, hradius, -⟩ := hs
  unfold ofJson?
  simp only [↓bind_eq_some_iff]
  refine ⟨_, rfl,
    s.color, required_of_lookup ?_ (roundTrips_string _),
    s.offsetX, required_of_lookup ?_ (roundTrips_number hx),
    s.offsetY, required_of_lookup ?_ (roundTrips_number hy),
    s.opacity, required_of_lookup ?_ (roundTrips_number hopacity),
    s.radius, required_of_lookup ?_ (roundTrips_number hradius), rfl⟩
  all_goals simp [List.lookup_cons]

/-! ### Widgets and components -/

/-- The record of a widget is read back, also where widgets inside it stand behind. -/
theorem Widget.ofFields?_toFields {w : Widget} (hw : AllFinite w.numbers) {α : Type}
    (write : α → Json) (children : List α) :
    ofFields? (w.toFields ++ ifAny "children" write children) = some w := by
  simp only [numbers, allFinite_append, allFinite_flatMap, Option.mem_toList] at hw
  obtain ⟨⟨⟨⟨⟨hlayout, hsize⟩, hborder⟩, hpadding⟩, htypography⟩, hshadow⟩ := hw
  unfold ofFields?
  simp only [↓bind_eq_some_iff]
  refine ⟨
    w.id, required_of_lookup ?_ (roundTrips_string _),
    w.name, required_of_lookup ?_ (roundTrips_string _),
    w.kind, required_of_lookup ?_ (WidgetKind.foundByName.roundTrips _),
    w.omitted, orDefault_flag_of_lookup ?_,
    w.layout, optional_of_lookup ?_ fun l hl => FlexLayout.roundTrips (hlayout l hl),
    w.size, optional_of_lookup ?_ fun s hs => Size.roundTrips (hsize s hs),
    w.backgroundColor, optional_of_lookup ?_ fun s _ => roundTrips_string s,
    w.border, optional_of_lookup ?_ fun b hb => Border.roundTrips (hborder b hb),
    w.padding, optional_of_lookup ?_ fun p hp => Padding.roundTrips (hpadding p hp),
    w.typography, optional_of_lookup ?_ fun t ht => Typography.roundTrips (htypography t ht),
    w.shadow, optional_of_lookup ?_ fun s hs => Shadow.roundTrips (hshadow s hs),
    w.text, optional_of_lookup ?_ fun s _ => roundTrips_string s,
    w.imageRef, optional_of_lookup ?_ fun s _ => roundTrips_string s, rfl⟩
  all_goals
    unfold toFields
    simp [List.lookup_append, List.lookup_cons]

theorem Widget.lookup_children (w : Widget) : w.toFields.lookup "children" = none := by
  unfold toFields
  simp [List.lookup_append, List.lookup_cons]

/-- **Components are read back** from what is written for them. -/
theorem Component.roundTrips {c : Component} (hc : AllFinite c.numbers) :
    RoundTrips ofJson? toJson c :=
  Tree.roundTrips_tree Widget.lookup_children fun w hw _ =>
    Widget.ofFields?_toFields (allFinite_flatMap.mp hc w hw) _ _

end Handoff
