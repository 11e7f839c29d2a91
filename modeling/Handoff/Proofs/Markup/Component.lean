import Handoff.Markup.Emit
import Handoff.Proofs.Markup.ReadBack
import Handoff.Proofs.Results
import Handoff.Proofs.Tree

/-!
# The source of a component is read back

What a component shows is an element (`Component.shown`): a box that is hidden
for a placeholder, and else the primitive with the id, the picture, the classes
and the inline style of the widget, and inside it the text or what the widgets
inside show. The source of a component is read back as this element, at whatever
column it starts and whatever characters its texts have
(`Component.emit_reads_back`). A text that is no placeholder must not have widgets
inside, since such a component has no source.
-/

namespace Handoff

namespace Component

/-! ### What a component shows -/

/-- The id, the picture, the classes and the inline style of a widget, each where there is one. -/
def shownAttributes (w : Widget) (primitive : Primitive) : List (String × Script.Value) :=
  let style := Style.ofWidget w
  [("testID", .string w.id)]
    ++ (if primitive = .image ∨ primitive = .imageBackground then
        w.imageRef.toList.map fun uri => ("source", .object [("uri", .string uri)])
      else [])
    ++ (if style.className = "" then [] else [("className", .string style.className)])
    ++ (if style.inline.isEmpty then []
      else [("style", .object (style.inline.map fun f => (f.1, .ofJson f.2)))])

mutual
/-- The element that a component shows. -/
def shown : Component → Element
  | ⟨w, children⟩ =>
    if w.omitted then .tagged "View" [("testID", .string w.id), ("className", .string "hidden")] []
    else
      let primitive := Primitive.ofComponent ⟨w, children⟩
      .tagged primitive.tag (shownAttributes w primitive) (match w.kind with
        | .text => (w.text.toList.filter (· ≠ "")).map .text
        | _ => shownAll children)
/-- `shown` on each component. -/
def shownAll : List (Tree Widget) → List Element
  | [] => []
  | c :: cs => shown c :: shownAll cs
end

theorem shownAll_eq_map (cs : List (Tree Widget)) : shownAll cs = cs.map shown := by
  induction cs with
  | nil => rfl
  | cons c cs ih => simp [shownAll, ih]

/-- No text that is not a placeholder has widgets inside. -/
def TextsAreLeaves (c : Component) : Prop :=
  ∀ visit ∈ c.walk, visit.1.value.omitted = false → visit.1.value.kind = .text →
    visit.1.children = []

theorem textsAreLeaves_iff (w : Widget) (children : List (Tree Widget)) :
    TextsAreLeaves ⟨w, children⟩
      ↔ (w.omitted = false → w.kind = .text → children = []) ∧ ∀ c ∈ children, TextsAreLeaves c :=
  Tree.forall_walk_iff
    (fun c : Component => c.value.omitted = false → c.value.kind = .text → c.children = [])
    w children

theorem textsAreLeaves_leaf (w : Widget) : TextsAreLeaves (.leaf w) :=
  (textsAreLeaves_iff w []).mpr ⟨fun _ _ => rfl, by simp⟩

/-! ### Names -/

theorem isWord_tag (p : Primitive) : IsWord p.tag := by
  cases p <;> decide

theorem isWord_attributes (w : Widget) (primitive : Primitive) :
    ∀ a ∈ attributes w primitive, IsWord a.name := by
  have hnames : ∀ name ∈ ["testID", "source", "className", "style"], IsWord name := by
    simp only [List.forall_mem_cons]
    decide
  intro a ha
  refine hnames _ ?_
  simp only [attributes, List.mem_append] at ha
  rcases ha with ((ha | ha) | ha) | ha
  · simp_all
  · split at ha <;> simp_all
  · split at ha <;> simp_all
  · split at ha <;> simp_all

/-- What is written as attributes is what the widget shows. -/
theorem map_named_attributes (w : Widget) (primitive : Primitive) :
    (attributes w primitive).map Element.named = shownAttributes w primitive := by
  have hpicture : (primitive.showsImage = true) ↔ primitive = .image ∨ primitive = .imageBackground := by
    cases primitive <;> decide
  simp only [attributes, shownAttributes, List.map_append, ← hpicture]
  congr 1
  · congr 1
    · congr 1
      cases primitive.showsImage <;> cases w.imageRef <;>
        simp [Element.named, Script.Value.ofJson, Script.Value.ofFields]
    · split <;> simp [Element.named]
  · split <;> simp [Element.named, Script.Value.ofJson, Script.Value.ofFields_eq_map]

/-! ### Reading back -/

/-- The component has a markup, with words for names, that says what the component shows. -/
def HasMarkup (c : Component) : Prop :=
  ∃ m, c.markup = .ok m ∧ m.WellNamed ∧ Element.ofMarkup m = c.shown

/-- Components have markups one after the other if each has one. -/
theorem markupOfAll_ok {cs : List (Tree Widget)} (h : ∀ c ∈ cs, HasMarkup c) :
    ∃ ms, markupOfAll cs = .ok ms ∧ (∀ m ∈ ms, m.WellNamed) ∧ Element.ofAll ms = shownAll cs := by
  induction cs with
  | nil => exact ⟨[], rfl, by simp, rfl⟩
  | cons c cs ih =>
    obtain ⟨m, hm, hnamed, hshown⟩ := h c (by simp)
    obtain ⟨ms, hms, hnames, hall⟩ := ih fun c hc => h c (by simp [hc])
    refine ⟨m :: ms, ?_, List.forall_mem_cons.mpr ⟨hnamed, hnames⟩, ?_⟩
    · simp [markupOfAll, hm, hms, Except.bind, Except.map]
    · simp [Element.ofAll, shownAll, hshown, hall]

theorem ofComponent_eq_text_iff {w : Widget} (children : List (Tree Widget))
    (h : w.omitted = false) : Primitive.ofComponent ⟨w, children⟩ = .text ↔ w.kind = .text := by
  unfold Primitive.ofComponent
  cases hk : w.kind <;> simp [h]
  split <;> simp

theorem hasMarkup_placeholder {w : Widget} (children : List (Tree Widget)) (h : w.omitted = true) :
    HasMarkup ⟨w, children⟩ := by
  refine ⟨.closed "View" (placeholderAttributes w), ?_, .closed (isWord_tag .view) ?_, ?_⟩
  · simp [markup, Primitive.ofComponent, Primitive.tag, h]
  · simp only [placeholderAttributes, List.forall_mem_cons]
    exact ⟨by decide, by decide, by simp⟩
  · simp [shown, h, Element.ofMarkup, placeholderAttributes, Element.named]

theorem hasMarkup_text {w : Widget} (h : w.omitted = false) (hkind : w.kind = .text) :
    HasMarkup ⟨w, []⟩ := by
  have hprimitive := (ofComponent_eq_text_iff [] h).mpr hkind
  have htag := isWord_tag .text
  have hnames := isWord_attributes w .text
  have hnamed := map_named_attributes w .text
  cases htext : w.text with
  | none =>
    refine ⟨.closed Primitive.text.tag (attributes w .text), ?_, .closed htag hnames, ?_⟩
    · simp [markup, h, hprimitive, htext]
    · simp [shown, h, hprimitive, hkind, htext, Element.ofMarkup, hnamed]
  | some content =>
    by_cases hcontent : content = ""
    · refine ⟨.closed Primitive.text.tag (attributes w .text), ?_, .closed htag hnames, ?_⟩
      · simp [markup, h, hprimitive, htext, hcontent]
      · simp [shown, h, hprimitive, hkind, htext, hcontent, Element.ofMarkup, hnamed]
    · refine ⟨.text Primitive.text.tag (attributes w .text) content, ?_,
        .text htag hnames hcontent, ?_⟩
      · simp [markup, h, hprimitive, htext, hcontent]
      · simp [shown, h, hprimitive, hkind, htext, hcontent, Element.ofMarkup, hnamed]

theorem hasMarkup_parent {w : Widget} {children : List (Tree Widget)} (h : w.omitted = false)
    (hkind : w.kind ≠ .text) (hchildren : ∀ c ∈ children, HasMarkup c) :
    HasMarkup ⟨w, children⟩ := by
  have hprimitive := mt (ofComponent_eq_text_iff children h).mp hkind
  have htag := isWord_tag (Primitive.ofComponent ⟨w, children⟩)
  have hnames := isWord_attributes w (Primitive.ofComponent ⟨w, children⟩)
  have hnamed := map_named_attributes w (Primitive.ofComponent ⟨w, children⟩)
  obtain ⟨ms, hms, hwell, hall⟩ := markupOfAll_ok hchildren
  by_cases hnil : children = []
  · subst hnil
    refine ⟨.closed _ _, ?_, .closed htag hnames, ?_⟩
    · simp [markup, h, hprimitive]
    · simp [shown, h, shownAll, Element.ofMarkup, hnamed]
  · refine ⟨.parent _ _ ms, ?_, .parent htag hnames hwell, ?_⟩
    · simp [markup, h, hprimitive, hnil, hms, Except.map]
    · simp [shown, h, hall, Element.ofMarkup, hnamed]

/-- A component in which no text has widgets inside has a markup. -/
theorem hasMarkup (c : Component) (h : c.TextsAreLeaves) : HasMarkup c := by
  induction c using Tree.children_induction with
  | node w children ih =>
    obtain ⟨hroot, hchildren⟩ := (textsAreLeaves_iff w children).mp h
    by_cases homitted : w.omitted = true
    · exact hasMarkup_placeholder children homitted
    · have hshown : w.omitted = false := by simpa using homitted
      by_cases hkind : w.kind = .text
      · rw [hroot hshown hkind]
        exact hasMarkup_text hshown hkind
      · exact hasMarkup_parent hshown hkind fun c hc => ih c hc (hchildren c hc)

/-- Components one after the other have a markup where each has one. -/
theorem markupOfAll_eq_mapM (cs : List (Tree Widget)) : markupOfAll cs = cs.mapM markup := by
  induction cs with
  | nil => rfl
  | cons c cs ih =>
    rw [markupOfAll, ih, List.mapM_cons]
    cases markup c with
    | error e => rfl
    | ok m => cases cs.mapM markup <;> rfl

/-- A component with a markup is a placeholder, a text with nothing inside, or something else in
which everything has a markup. -/
theorem cases_of_markup {w : Widget} {children : List (Tree Widget)} {m : Markup}
    (h : markup ⟨w, children⟩ = .ok m) : w.omitted = true
      ∨ (w.omitted = false ∧ w.kind = .text ∧ children = [])
      ∨ (w.omitted = false ∧ w.kind ≠ .text ∧ ∀ c ∈ children, ∃ m, markup c = .ok m) := by
  by_cases homitted : w.omitted = true
  · exact .inl homitted
  · have hshown : w.omitted = false := by simpa using homitted
    by_cases hkind : w.kind = .text
    · have hprimitive := (ofComponent_eq_text_iff children hshown).mpr hkind
      refine .inr (.inl ⟨hshown, hkind, ?_⟩)
      by_contra hnil
      simp [markup, hshown, hprimitive, hnil] at h
    · have hprimitive := mt (ofComponent_eq_text_iff children hshown).mp hkind
      refine .inr (.inr ⟨hshown, hkind, ?_⟩)
      by_cases hnil : children = []
      · simp [hnil]
      · cases hms : markupOfAll children with
        | error e => simp [markup, hshown, hprimitive, hnil, hms, Except.map] at h
        | ok ms =>
          rw [markupOfAll_eq_mapM] at hms
          exact exists_mapM_eq_ok_iff.mp ⟨ms, hms⟩

/-- A markup says what the component shows, also where nobody looked inside placeholders. -/
theorem hasMarkup_of_markup {c : Component} {m : Markup} (h : c.markup = .ok m) : HasMarkup c := by
  induction c using Tree.children_induction generalizing m with
  | node w children ih =>
    rcases cases_of_markup h with homitted | ⟨hshown, hkind, rfl⟩ | ⟨hshown, hkind, hchildren⟩
    · exact hasMarkup_placeholder children homitted
    · exact hasMarkup_text hshown hkind
    · refine hasMarkup_parent hshown hkind fun c hc => ?_
      obtain ⟨m, hm⟩ := hchildren c hc
      exact ih c hc hm

/-- A component can be written when it has a markup, whatever the column. -/
theorem exists_emit_iff (c : Component) (indent : Nat) :
    (∃ source, c.emit indent = .ok source) ↔ ∃ m, c.markup = .ok m := by
  rw [emit]
  cases c.markup <;> simp [Except.map]

/-- **The source of a component is read back** as what the component shows. -/
theorem emit_reads_back (c : Component) (h : c.TextsAreLeaves) (indent : Nat) :
    ∃ source, c.emit indent = .ok source ∧ Element.read? source = some c.shown := by
  obtain ⟨m, hm, hnamed, hshown⟩ := hasMarkup c h
  refine ⟨m.source indent, ?_, ?_⟩
  · rw [emit, hm]
    rfl
  · rw [Element.read?_source hnamed, hshown]

/-- A button with a text that has markup in it, and a placeholder for a text with a box inside. -/
theorem emit_reads_back_button :
    let label : Component :=
      .leaf { id := "1:2", name := "", kind := .text, text := some "a \x7b&\x7d b" }
    let hidden : Component := ⟨{ id := "h", name := "", kind := .text, omitted := true }, [label]⟩
    let c : Component :=
      ⟨{ id := "say \"hi\"", name := "", kind := .button, backgroundColor := some "it's" },
        [label, hidden]⟩
    c.TextsAreLeaves ∧ ∃ source, c.emit 2 = .ok source ∧ Element.read? source = some
      (.tagged "Pressable" [("testID", .string "say \"hi\""),
          ("style", .object [("backgroundColor", .string "it's")])]
        [.tagged "Text" [("testID", .string "1:2")] [.text "a \x7b&\x7d b"],
          .tagged "View" [("testID", .string "h"), ("className", .string "hidden")] []]) := by
  intro label hidden c
  have hleaves : c.TextsAreLeaves := by
    simp [TextsAreLeaves, Tree.walk, Tree.walkFrom, Tree.walkAllFrom, c, label, hidden, Tree.leaf]
  exact ⟨hleaves, emit_reads_back c hleaves 2⟩

end Component

end Handoff
