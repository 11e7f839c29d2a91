import Handoff.Proofs.Component.Texts

/-!
# Paints and effects that are not shown

Colors and shadows are taken from paints and effects that are shown. Two things
are not: a layer is an image for any image among its fills, and its border is
that of its first stroke, shown or not. What else is not shown can be taken away
from every layer without changing the component (`Layer.widget_withoutUnused`).
If all of it is taken away, the component stays the same exactly when at every
layer that becomes a widget the strokes and the pictures that are shown say the
same as all of them (`Layer.PaintsAgree`).
-/

namespace Handoff

/-! ### Taking away what is not looked for -/

section Filter

variable {α : Type} {p q : α → Bool}

theorem and_eq_of_imp (h : ∀ a, q a = true → p a = true) (a : α) : (p a && q a) = q a := by
  cases hq : q a with
  | false => rw [Bool.and_false]
  | true => rw [h a hq, Bool.and_self]

theorem filter_filter_of_imp (h : ∀ a, q a = true → p a = true) (xs : List α) :
    (xs.filter p).filter q = xs.filter q := by
  rw [List.filter_filter]
  exact List.filter_congr fun a _ => by rw [Bool.and_comm, and_eq_of_imp h]

theorem find?_filter_of_imp (h : ∀ a, q a = true → p a = true) (xs : List α) :
    (xs.filter p).find? q = xs.find? q := by
  rw [← List.head?_filter, ← List.head?_filter, filter_filter_of_imp h]

theorem any_filter_of_imp (h : ∀ a, q a = true → p a = true) (xs : List α) :
    (xs.filter p).any q = xs.any q := by
  rw [List.any_filter]
  exact List.any_congr rfl (and_eq_of_imp h)

end Filter

/-! ### Layers with other paints and effects -/

namespace Layer

/-- The layer with these paints and effects for its own. -/
def repaint (fills strokes : List Paint) (effects : List Effect) (l : Layer) : Layer :=
  { l with fills := fills, strokes := strokes, effects := effects }

/-- The layer without its paints and effects that are not shown. -/
def withoutInvisible (l : Layer) : Layer :=
  l.repaint (l.fills.filter Paint.isVisible) (l.strokes.filter Paint.isVisible)
    (l.effects.filter Effect.isVisible)

/-- The layer without those of them that no attribute is taken from. -/
def withoutUnused (l : Layer) : Layer :=
  l.repaint (l.fills.filter fun p => p.isVisible || p.kind == .image)
    (l.strokes.take 1 ++ (l.strokes.drop 1).filter Paint.isVisible)
    (l.effects.filter Effect.isVisible)

variable {options : ConversionOptions} {classifier : Classifier} {l : Layer}
  {fills strokes : List Paint} {effects : List Effect}

theorem isOmitted_repaint :
    (l.repaint fills strokes effects).isOmitted options = l.isOmitted options := rfl

/-- Where colors and shadows are the same, the widgets are if kind, border and picture are. -/
theorem widget_repaint_eq_iff (hshown : l.isOmitted options = false)
    (hcolor : (l.repaint fills strokes effects).fillColor? = l.fillColor?)
    (hshadow : (l.repaint fills strokes effects).shadow? = l.shadow?) :
    (l.repaint fills strokes effects).widget options classifier = l.widget options classifier
      ↔ classifier.classify options (l.repaint fills strokes effects) = classifier.classify options l
        ∧ (l.repaint fills strokes effects).border? = l.border?
        ∧ (classifier.classify options l = .image →
          (l.repaint fills strokes effects).imageRef? = l.imageRef?) := by
  have hnot := Bool.eq_false_iff.mp hshown
  have htypography : (l.repaint fills strokes effects).typography? = l.typography? := by
    unfold typography?
    rw [hcolor]
    rfl
  rw [widget, widget, isOmitted_repaint, if_neg hnot, if_neg hnot, hcolor, hshadow, htypography]
  simp only [Widget.mk.injEq]
  constructor
  · rintro ⟨-, -, hkind, -, -, -, -, hborder, -, -, -, -, himage⟩
    refine ⟨hkind, hborder, fun h => ?_⟩
    rwa [hkind, if_pos h, if_pos h] at himage
  · rintro ⟨hkind, hborder, himage⟩
    refine ⟨rfl, rfl, hkind, trivial, rfl, rfl, rfl, hborder, rfl, rfl, trivial, rfl, ?_⟩
    rw [hkind]
    split
    · next h => exact himage h
    · rfl

theorem fillColor?_repaint (h : fills.filter Paint.isVisible = l.fills.filter Paint.isVisible) :
    (l.repaint fills strokes effects).fillColor? = l.fillColor? := by
  unfold fillColor? repaint
  rw [h]

theorem shadow?_repaint :
    (l.repaint fills strokes (l.effects.filter Effect.isVisible)).shadow? = l.shadow? := by
  have hfind : (l.effects.filter Effect.isVisible).find?
      (fun e => e.kind == .dropShadow && e.isVisible)
        = l.effects.find? fun e => e.kind == .dropShadow && e.isVisible :=
    find?_filter_of_imp (fun _ h => (Bool.and_eq_true_iff.mp h).2) _
  unfold shadow? repaint
  rw [hfind]

/-! ### What is not used -/

theorem classify_repaint (h : fills.any (·.kind == .image) = l.fills.any (·.kind == .image)) :
    classifier.classify options (l.repaint fills strokes effects) = classifier.classify options l := by
  have hrule : Rule.apply options (l.repaint fills strokes effects) = Rule.apply options l := by
    funext rule
    cases rule with
    | textLayer => rfl
    | nameContains keywords kind => rfl
    | imageFill =>
      show (if fills.any (·.kind == .image) then _ else _) = _
      rw [h]
      rfl
  rw [Classifier.classify, hrule]
  rfl

theorem border?_repaint (h : strokes.head? = l.strokes.head?) :
    (l.repaint fills strokes effects).border? = l.border? := by
  unfold border? repaint
  rw [h]

/-- What no attribute is taken from can be taken away. -/
theorem widget_withoutUnused (options : ConversionOptions) (classifier : Classifier) (l : Layer) :
    l.withoutUnused.widget options classifier = l.widget options classifier := by
  cases homitted : l.isOmitted options with
  | true =>
    rw [widget_of_isOmitted options classifier l homitted,
      widget_of_isOmitted options classifier l.withoutUnused homitted]
    rfl
  | false =>
    have hkept : ∀ p : Paint, (p.kind == .image) = true →
        (p.isVisible || p.kind == .image) = true := by
      intro p h
      rw [h, Bool.or_true]
    have hvisible : (l.fills.filter fun p => p.isVisible || p.kind == .image).filter Paint.isVisible
        = l.fills.filter Paint.isVisible := by
      refine filter_filter_of_imp (fun p h => ?_) _
      rw [h, Bool.true_or]
    have himages : (l.fills.filter fun p => p.isVisible || p.kind == .image).filter (·.kind == .image)
        = l.fills.filter (·.kind == .image) := filter_filter_of_imp hkept _
    have hany : (l.fills.filter fun p => p.isVisible || p.kind == .image).any (·.kind == .image)
        = l.fills.any (·.kind == .image) := any_filter_of_imp hkept _
    have hfirst : (l.strokes.take 1 ++ (l.strokes.drop 1).filter Paint.isVisible).head?
        = l.strokes.head? := by
      cases l.strokes <;> rfl
    refine (widget_repaint_eq_iff homitted (fillColor?_repaint hvisible) shadow?_repaint).mpr
      ⟨classify_repaint hany, border?_repaint hfirst, fun _ => ?_⟩
    unfold imageRef? repaint
    rw [himages]

/-! ### Everything that is not shown -/

/-- The hex form of the color that a stroke gives a border. -/
def borderColor? (stroke : Paint) : Option String := stroke.solidColor?.map Color.hex

/-- The strokes and the pictures that are shown say the same as all of them. -/
structure PaintsAgree (options : ConversionOptions) (l : Layer) : Prop where
  /-- If there is a stroke, one is shown, and the first of those has the color of the first one. -/
  stroke : (l.strokes.filter Paint.isVisible).head?.map borderColor?
    = l.strokes.head?.map borderColor?
  /-- If the layer is an image, it has one among the fills that are shown. -/
  image : Classifier.standard.classify options l = .image →
    ∃ p ∈ l.fills, p.isVisible = true ∧ p.kind = .image
  /-- The first picture of these is the first one of all. -/
  picture : Classifier.standard.classify options l = .image →
    (l.fills.filter fun p => p.isVisible && p.kind == .image).findSome? (·.imageRef) = l.imageRef?

theorem border?_withoutInvisible_iff : l.withoutInvisible.border? = l.border?
    ↔ (l.strokes.filter Paint.isVisible).head?.map borderColor?
      = l.strokes.head?.map borderColor? := by
  unfold border? withoutInvisible repaint
  dsimp only
  generalize (l.strokes.filter Paint.isVisible).head? = shown
  generalize l.strokes.head? = first
  generalize l.cornerRadius.filter _ = radius
  cases radius <;> cases shown <;> cases first <;> simp [borderColor?, eq_comm]

theorem classify_withoutInvisible_iff :
    Classifier.standard.classify options l.withoutInvisible = Classifier.standard.classify options l
      ↔ (Classifier.standard.classify options l = .image →
        ∃ p ∈ l.fills, p.isVisible = true ∧ p.kind = .image) := by
  have hshown : (∃ p ∈ l.fills, p.isVisible = true ∧ p.kind = .image)
      ↔ l.withoutInvisible.fills.any (·.kind == .image) = true := by
    simp [withoutInvisible, repaint]
  have hmore : l.withoutInvisible.fills.any (·.kind == .image) = true →
      l.fills.any (·.kind == .image) = true := by
    intro h
    obtain ⟨p, hp, -, hkind⟩ := hshown.mpr h
    exact List.any_eq_true.mpr ⟨p, hp, beq_iff_eq.mpr hkind⟩
  have hkind : l.withoutInvisible.kind = l.kind := rfl
  have hname : l.withoutInvisible.name = l.name := rfl
  rw [hshown, Classifier.classify_standard, Classifier.classify_standard, hkind, hname]
  split_ifs with htext hbutton hsome hall hall
  · simp
  · simp
  · simp [hsome]
  · exact absurd (hmore hsome) hall
  · simp [hsome]
  · simp

/-- If nothing is left that is not shown, the widget is the same when the paints agree. -/
theorem widget_withoutInvisible_iff (hshown : l.isOmitted options = false) :
    l.withoutInvisible.widget options .standard = l.widget options .standard
      ↔ l.PaintsAgree options := by
  have hvisible : (l.fills.filter Paint.isVisible).filter Paint.isVisible
      = l.fills.filter Paint.isVisible := filter_filter_of_imp (fun _ h => h) _
  have hpicture : l.withoutInvisible.imageRef?
      = (l.fills.filter fun p => p.isVisible && p.kind == .image).findSome? (·.imageRef) := by
    unfold imageRef? withoutInvisible repaint
    rw [List.filter_filter]
    simp only [Bool.and_comm]
  have hwidget : l.withoutInvisible.widget options .standard = l.widget options .standard
      ↔ Classifier.standard.classify options l.withoutInvisible
          = Classifier.standard.classify options l
        ∧ l.withoutInvisible.border? = l.border?
        ∧ (Classifier.standard.classify options l = .image →
          l.withoutInvisible.imageRef? = l.imageRef?) :=
    widget_repaint_eq_iff hshown (fillColor?_repaint hvisible) shadow?_repaint
  rw [hwidget, classify_withoutInvisible_iff, border?_withoutInvisible_iff, hpicture]
  constructor
  · rintro ⟨himage, hstroke, hpicture⟩
    exact ⟨hstroke, himage, hpicture⟩
  · rintro ⟨hstroke, himage, hpicture⟩
    exact ⟨himage, hstroke, hpicture⟩

end Layer

/-! ### Designs -/

namespace Node

/-- A layer becomes a widget with attributes: neither it nor a layer above it is hidden, or hidden
layers are converted too. -/
def IsShown (options : ConversionOptions) (p : Place Layer) : Prop :=
  options.includeHidden = true ∨ ∀ l ∈ p.tree.value :: p.above, l.visible ≠ some false

variable (options : ConversionOptions) (classifier : Classifier)

theorem isShown_iff (p : Place Layer) :
    IsShown options p ↔ ∀ l ∈ p.tree.value :: p.above, l.isOmitted options = false :=
  isKept_iff options ⟨p.tree, p.tree.value :: p.above⟩

/-- What a layer that is omitted holds does not matter. -/
theorem not_isShown_of_isOmitted {above : List Layer} {node : Node}
    (h : node.value.isOmitted options = true) :
    ∀ p ∈ node.placesFrom above, ¬ IsShown options p := by
  intro p hp hshown
  have hfalse := (isShown_iff options p).mp hshown _ (Tree.value_mem_of_mem_placesFrom hp)
  rw [h] at hfalse
  cases hfalse

/-- Changing every layer leaves the component of a design, below layers of which none is omitted,
when it leaves the widgets of the layers that are shown. -/
theorem convert_map_eq_iff {f : Layer → Layer} (hid : ∀ l, (f l).id = l.id)
    (hname : ∀ l, (f l).name = l.name) (homitted : ∀ l, (f l).isOmitted options = l.isOmitted options)
    (node : Node) (above : List Layer) (habove : ∀ l ∈ above, l.isOmitted options = false) :
    convert options classifier (node.map f) = convert options classifier node
      ↔ ∀ p ∈ node.placesFrom above, IsShown options p →
        (f p.tree.value).widget options classifier = p.tree.value.widget options classifier := by
  induction node using Tree.children_induction generalizing above with
  | node l children ih =>
    rw [Tree.map, Tree.mapAll_eq_map, convert_node, convert_node, homitted, hid, hname]
    cases h : l.isOmitted options with
    | true =>
      have hnone : ∀ p ∈ Tree.placesFrom above ⟨l, children⟩, ¬ IsShown options p :=
        not_isShown_of_isOmitted options h
      simp only [if_true, true_iff]
      exact fun p hp hshown => absurd hshown (hnone p hp)
    | false =>
      have hbelow : ∀ m ∈ l :: above, m.isOmitted options = false :=
        List.forall_mem_cons.mpr ⟨h, habove⟩
      have hroot : IsShown options ⟨⟨l, children⟩, above⟩ := (isShown_iff options _).mpr hbelow
      rw [if_neg Bool.false_ne_true, if_neg Bool.false_ne_true, Tree.mk.injEq, List.map_map,
        List.map_inj_left, Tree.placesFrom, Tree.placesOfAllFrom_eq_flatMap, List.forall_mem_cons,
        List.forall_mem_flatMap]
      refine and_congr ⟨fun hwidget _ => hwidget, fun hwidget => hwidget hroot⟩ ?_
      exact forall₂_congr fun t ht => ih t ht (l :: above) hbelow

/--
**Most of what is not shown does not matter.** Fills that are no images, effects, and strokes behind
the first one can be taken away wherever they are not shown, by whatever rules layers are classified.
By the usual rules everything that is not shown can be taken away exactly when the strokes and the
pictures that are shown say the same as all of them, at every layer that is shown.
-/
theorem convert_withoutInvisible_iff (options : ConversionOptions) (node : Node) :
    (∀ classifier, convert options classifier (node.map Layer.withoutUnused)
        = convert options classifier node)
      ∧ (convert options .standard (node.map Layer.withoutInvisible)
          = convert options .standard node
        ↔ ∀ p ∈ node.places, IsShown options p → p.tree.value.PaintsAgree options) := by
  have hunused := fun classifier => convert_map_eq_iff options classifier (f := Layer.withoutUnused)
    (fun _ => rfl) (fun _ => rfl) (fun _ => rfl) node [] (by simp)
  have hinvisible := convert_map_eq_iff options .standard (f := Layer.withoutInvisible)
    (fun _ => rfl) (fun _ => rfl) (fun _ => rfl) node [] (by simp)
  refine ⟨fun classifier => (hunused classifier).mpr fun p _ _ =>
    Layer.widget_withoutUnused options classifier p.tree.value, hinvisible.trans ?_⟩
  refine forall₂_congr fun p _ => forall_congr' fun hshown => ?_
  have hroot := (isShown_iff options p).mp hshown _ List.mem_cons_self
  exact Layer.widget_withoutInvisible_iff hroot

/-- A stroke that is not shown gives a border, and a picture that is not shown makes an image. -/
theorem convert_invisible_ne :
    let line : Node := .leaf {
      id := "1:1", name := "Line", kind := .rectangle
      strokes := [{ kind := .solid, visible := some false, color := some ⟨0, 0, 0, 1⟩ }] }
    let photo : Node := .leaf {
      id := "1:2", name := "Photo", kind := .rectangle
      fills := [{ kind := .image, visible := some false, imageRef := some "photo" }] }
    convert {} .standard (line.map Layer.withoutInvisible) ≠ convert {} .standard line
      ∧ convert {} .standard (photo.map Layer.withoutInvisible) ≠ convert {} .standard photo := by
  intro line photo
  have hline : (convert {} .standard (line.map Layer.withoutInvisible)).value
      ≠ (convert {} .standard line).value := by
    decide +kernel
  have hphoto : (convert {} .standard (photo.map Layer.withoutInvisible)).value
      ≠ (convert {} .standard photo).value := by
    decide +kernel
  exact ⟨fun h => hline (congrArg Tree.value h), fun h => hphoto (congrArg Tree.value h)⟩

end Node

end Handoff
