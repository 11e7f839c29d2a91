import Handoff.Proofs.Component.Invisible

/-!
# Widgets with widgets inside

What is inside a component of a design is the component of a layer that is kept
(`Node.subtrees_convert`), and it has widgets inside when the layer is shown and
has layers inside. So the kinds of the parents are those that the rules give to
such layers. Frames and buttons are made for it, and a text never has anything
inside if no text layer has. An image does have, at each layer with layers inside
that an image fill made one (`Node.IsFullImage`): it is written as the picture
behind what is inside it, not as a picture of its own.
-/

namespace Handoff

theorem WidgetKind.acceptsChildren_iff (k : WidgetKind) :
    k.acceptsChildren = true ↔ k ≠ .text ∧ k ≠ .image := by
  cases k <;> decide

namespace Layer

/-- The name of the layer makes it a button, where buttons are looked for. -/
def IsNamedButton (options : ConversionOptions) (l : Layer) : Prop :=
  options.detectButtons = true ∧ (Classifier.buttonKeywords.any fun keyword =>
    Text.occurs keyword.toList (Text.fold l.name.toList)) = true

/-- A layer becomes an image by the usual rules when it has an image among its fills and is neither
a text nor a button. -/
theorem classify_standard_eq_image_iff (options : ConversionOptions) (l : Layer) :
    Classifier.standard.classify options l = .image
      ↔ l.kind ≠ .text ∧ ¬ l.IsNamedButton options ∧ ∃ p ∈ l.fills, p.kind = .image := by
  have hfills : l.fills.any (·.kind == .image) = true ↔ ∃ p ∈ l.fills, p.kind = .image := by
    simp only [List.any_eq_true, beq_iff_eq]
  rw [Classifier.classify_standard, IsNamedButton, ← hfills]
  split_ifs <;> simp_all

end Layer

namespace Node

variable (options : ConversionOptions) (classifier : Classifier)

/-! ### What is inside a component -/

/-- What is inside the component of a design are the components of the layers that are kept. -/
theorem subtrees_convert (node : Node) : (convert options classifier node).subtrees
    = (keptPlaces options node).map fun p => convert options classifier p.tree := by
  have hwalk := walkFrom_convert options classifier node [] (by simp)
  rw [List.length_nil] at hwalk
  rw [Tree.subtrees, Tree.walk, hwalk, List.map_map]
  rfl

theorem children_convert_ne_nil_iff (node : Node) : (convert options classifier node).children ≠ []
    ↔ node.value.isOmitted options = false ∧ node.children ≠ [] := by
  obtain ⟨l, children⟩ := node
  rw [convert_node]
  cases h : l.isOmitted options <;> simp [Tree.leaf]

theorem isShown_iff_isKept (p : Place Layer) :
    IsShown options p ↔ p.tree.value.isOmitted options = false ∧ IsKept options p := by
  rw [isShown_iff, isKept_iff, List.forall_mem_cons]

/-- The parents in the component of a design are the components of the layers that are shown and have
layers inside. -/
theorem forall_parents_convert_iff (node : Node) (P : Component → Prop) :
    (∀ c ∈ (convert options classifier node).subtrees, c.children ≠ [] → P c)
      ↔ ∀ p ∈ node.places, IsShown options p → p.tree.children ≠ [] →
        P (convert options classifier p.tree) := by
  rw [subtrees_convert, List.forall_mem_map]
  simp only [keptPlaces, List.mem_filter, decide_eq_true_eq, children_convert_ne_nil_iff,
    isShown_iff_isKept]
  constructor
  · rintro h p hp ⟨hshown, hkept⟩ hfull
    exact h p ⟨hp, hkept⟩ ⟨hshown, hfull⟩
  · rintro h p ⟨hp, hkept⟩ ⟨hshown, hfull⟩
    exact h p hp ⟨hshown, hkept⟩ hfull

/-! ### Kinds of parents -/

/-- A layer that is shown and has layers inside, and that an image fill makes an image: it is
neither a text nor named like a button. -/
structure IsFullImage (p : Place Layer) : Prop where
  /-- The layer becomes a widget with attributes. -/
  shown : IsShown options p
  /-- There are layers inside. -/
  full : p.tree.children ≠ []
  /-- It is no text. -/
  kind : p.tree.value.kind ≠ .text
  /-- It is no button. -/
  name : ¬ p.tree.value.IsNamedButton options
  /-- There is an image among the fills, shown or not. -/
  fill : ∃ paint ∈ p.tree.value.fills, paint.kind = .image

variable {options}

/-- A parent of a design in which texts have nothing inside is no text, and it is an image when its
layer is one. -/
theorem kind_of_parent {node : Node} (hleaves : node.TextsAreLeaves) {p : Place Layer}
    (hp : p ∈ node.places) (hshown : IsShown options p) (hfull : p.tree.children ≠ []) :
    (convert options .standard p.tree).value.kind ≠ .text
      ∧ ((convert options .standard p.tree).value.kind = .image ↔ IsFullImage options p) := by
  have htree : p.tree ∈ node.subtrees := by
    rw [← Tree.map_tree_placesFrom []]
    exact List.mem_map_of_mem hp
  have htext : p.tree.value.kind ≠ .text := fun h => hfull (hleaves p.tree htree h)
  have homitted := ((isShown_iff_isKept options p).mp hshown).1
  rw [value_convert, Layer.kind_widget options .standard _ homitted]
  refine ⟨fun h => htext ((Classifier.classify_standard_eq_text_iff options _).mp h), ?_⟩
  rw [Layer.classify_standard_eq_image_iff]
  exact ⟨fun ⟨hkind, hname, hfill⟩ => ⟨hshown, hfull, hkind, hname, hfill⟩,
    fun h => ⟨h.kind, h.name, h.fill⟩⟩

/-- An image with widgets inside is written as the picture behind them. -/
theorem ofComponent_image {c : Component} (homitted : c.value.omitted = false)
    (hkind : c.value.kind = .image) (hfull : c.children ≠ []) :
    Primitive.ofComponent c = .imageBackground := by
  simp [Primitive.ofComponent, homitted, hkind, hfull]

/--
**Widgets with widgets inside are frames, buttons and pictures behind them.** In a design in which
texts have nothing inside, every parent is of a kind that is made for it, or it is an image and is
written as the picture behind what is inside. All are of such a kind exactly when no layer with
layers inside becomes an image.
-/
theorem parents_convert (options : ConversionOptions) (node : Node)
    (hleaves : node.TextsAreLeaves) :
    (∀ c ∈ (convert options .standard node).subtrees, c.children ≠ [] →
        c.value.kind.acceptsChildren = true
          ∨ c.value.kind = .image ∧ Primitive.ofComponent c = .imageBackground)
      ∧ ((∀ c ∈ (convert options .standard node).subtrees, c.children ≠ [] →
          c.value.kind.acceptsChildren = true)
        ↔ ∀ p ∈ node.places, ¬ IsFullImage options p) := by
  constructor
  · rw [forall_parents_convert_iff]
    intro p hp hshown hfull
    have homitted := ((isShown_iff_isKept options p).mp hshown).1
    by_cases himage : (convert options .standard p.tree).value.kind = .image
    · refine .inr ⟨himage, ofComponent_image ?_ himage ?_⟩
      · rw [value_convert, Layer.omitted_widget, homitted]
      · exact (children_convert_ne_nil_iff options .standard _).mpr ⟨homitted, hfull⟩
    · exact .inl ((WidgetKind.acceptsChildren_iff _).mpr
        ⟨(kind_of_parent hleaves hp hshown hfull).1, himage⟩)
  · rw [forall_parents_convert_iff]
    refine forall₂_congr fun p hp => ?_
    simp only [WidgetKind.acceptsChildren_iff]
    constructor
    · intro haccepts himage
      exact (haccepts himage.shown himage.full).2
        ((kind_of_parent hleaves hp himage.shown himage.full).2.mpr himage)
    · intro hnot hshown hfull
      obtain ⟨htext, himage⟩ := kind_of_parent hleaves hp hshown hfull
      exact ⟨htext, mt himage.mp hnot⟩

/-- A card with a label and, beside it, a button with a picture behind its label. -/
theorem parents_convert_card :
    let label (id : String) : Node := .leaf { id := id, kind := .text, characters := some "Go" }
    let button : Node := ⟨{
      id := "1:3", name := "Button", kind := .frame
      fills := [{ kind := .image, imageRef := some "bg" }] }, [label "1:4"]⟩
    let card : Node := ⟨{ id := "1:1", name := "Card", kind := .frame }, [label "1:2", button]⟩
    card.TextsAreLeaves ∧ ∀ c ∈ (convert {} .standard card).subtrees, c.children ≠ [] →
      c.value.kind.acceptsChildren = true := by
  intro label button card
  have hleaves : card.TextsAreLeaves := by
    unfold TextsAreLeaves
    decide +kernel
  refine ⟨hleaves, (parents_convert {} card hleaves).2.mpr ?_⟩
  intro p hp himage
  have hplain : ∀ p ∈ card.places, p.tree.value.fills = [] ∨ p.tree.value.name = "Button" := by
    decide +kernel
  obtain ⟨paint, hpaint, -⟩ := himage.fill
  rcases hplain p hp with hnil | hbutton
  · rw [hnil] at hpaint
    exact List.not_mem_nil hpaint
  · refine himage.name ⟨rfl, ?_⟩
    rw [hbutton]
    decide +kernel

/-- A picture with a label on it is an image, and images are not made to have widgets inside. -/
theorem parents_convert_image :
    let label : Node := .leaf { id := "1:2", kind := .text, characters := some "Hello" }
    let hero : Node := ⟨{
      id := "1:1", name := "Hero", kind := .frame
      fills := [{ kind := .image, imageRef := some "bg" }] }, [label]⟩
    hero.TextsAreLeaves ∧ ∃ c ∈ (convert {} .standard hero).subtrees,
      c.children ≠ [] ∧ c.value.kind.acceptsChildren = false := by
  intro label hero
  refine ⟨?_, convert {} .standard hero, Tree.self_mem_subtrees _, ?_, ?_⟩
  · unfold TextsAreLeaves
    decide +kernel
  · exact (children_convert_ne_nil_iff {} .standard hero).mpr (by decide +kernel)
  · decide +kernel

end Node

end Handoff
