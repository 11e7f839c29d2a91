import Handoff.Proofs.Component.Outline
import Handoff.Proofs.Project.Files

/-!
# Texts with layers inside

A text that has widgets inside cannot be written, and the first such text is
reported instead of a source. In the component of a design the texts are the text
layers, so this happens exactly for the text layers with layers inside that
become widgets: those that are not hidden and that have no hidden layer above
them, unless hidden layers are converted too (`Node.IsFullText`). What is
reported is the id of the first of them in visiting order
(`Node.error?_markup_convert`). A design in which text layers have nothing inside
has a source, and so has every part of it.
-/

namespace Handoff

/-! ### Texts of a component -/

namespace Component

/-- What is reported for a component: placeholders are never looked into, a text is reported if it
has widgets inside, and any other widget for the first of what is inside it. -/
theorem error?_markup (w : Widget) (children : List (Tree Widget)) :
    error? (markup ⟨w, children⟩) =
      if w.omitted then none
      else if w.kind = .text then (if children = [] then none else some ⟨w.id⟩)
      else children.findSome? fun c => error? (markup c) := by
  by_cases homitted : w.omitted = true
  · simp [markup, homitted, error?]
  · have hshown : w.omitted = false := by simpa using homitted
    have hprimitive := ofComponent_eq_text_iff children hshown
    by_cases hkind : w.kind = .text
    · by_cases hnil : children = []
      · subst hnil
        cases htext : w.text <;> simp [markup, hshown, hprimitive.mpr hkind, hkind, htext, error?]
      · simp [markup, hshown, hprimitive.mpr hkind, hkind, hnil, error?]
    · by_cases hnil : children = []
      · subst hnil
        simp [markup, hshown, hprimitive, hkind, error?]
      · have hparent : markup ⟨w, children⟩ = (children.mapM markup).map
            (.parent (Primitive.ofComponent ⟨w, children⟩).tag
              (attributes w (Primitive.ofComponent ⟨w, children⟩))) := by
          simp [markup, hshown, hprimitive, hkind, hnil, markupOfAll_eq_mapM]
        rw [hparent, error?_map, error?_mapM]
        simp [hshown, hkind]

/-- Only the markup of a component may have an error, whatever the column. -/
theorem emit_eq_error_iff (c : Component) (indent : Nat) (e : TextWithChildren) :
    c.emit indent = .error e ↔ error? c.markup = some e := by
  rw [← error?_eq_some_iff, emit, error?_map]

end Component

/-! ### Texts of a design -/

/-- The rule for buttons applies where they are looked for and the name has one of the words. -/
theorem Rule.apply_button (conversion : ConversionOptions) (l : Layer) (keywords : List String) :
    apply conversion l (.nameContains keywords .button) =
      if conversion.detectButtons = true ∧ (keywords.any fun keyword =>
        Text.occurs keyword.toList (Text.fold l.name.toList)) = true then some .button else none := by
  cases hdetect : conversion.detectButtons <;> simp [apply, hdetect]

/-- The kind of widget that a layer becomes by the usual rules. -/
theorem Classifier.classify_standard (conversion : ConversionOptions) (l : Layer) :
    standard.classify conversion l =
      if l.kind = .text then .text
      else if conversion.detectButtons = true ∧ (buttonKeywords.any fun keyword =>
        Text.occurs keyword.toList (Text.fold l.name.toList)) = true then .button
      else if l.fills.any (·.kind == .image) then .image
      else .frame := by
  have hrules : standard.classify conversion l
      = ([.textLayer, .nameContains buttonKeywords .button, .imageFill].findSome?
        (Rule.apply conversion l)).getD .frame := rfl
  simp only [hrules, List.findSome?_cons, List.findSome?_nil, Rule.apply_button]
  rw [Rule.apply, Rule.apply]
  split_ifs <;> rfl

/-- A layer becomes a text by the usual rules when it is one. -/
theorem Classifier.classify_standard_eq_text_iff (conversion : ConversionOptions) (l : Layer) :
    standard.classify conversion l = .text ↔ l.kind = .text := by
  rw [classify_standard]
  split_ifs <;> simp_all

namespace Layer

variable (conversion : ConversionOptions) (classifier : Classifier) (l : Layer)

theorem kind_widget (h : l.isOmitted conversion = false) :
    (l.widget conversion classifier).kind = classifier.classify conversion l := by
  rw [widget, if_neg (Bool.eq_false_iff.mp h)]

end Layer

namespace Node

/-- A text layer with layers inside that becomes a widget: neither it nor a layer above it is
hidden, or hidden layers are converted too. -/
def IsFullText (conversion : ConversionOptions) (p : Place Layer) : Prop :=
  p.tree.value.kind = .text ∧ p.tree.children ≠ []
    ∧ (conversion.includeHidden = true ∨ ∀ l ∈ p.tree.value :: p.above, l.visible ≠ some false)

instance (conversion : ConversionOptions) : DecidablePred (IsFullText conversion) :=
  fun _ => inferInstanceAs (Decidable (_ ∧ _ ∧ (_ ∨ _)))

variable (conversion : ConversionOptions)

theorem isFullText_iff (p : Place Layer) : IsFullText conversion p ↔ p.tree.value.kind = .text
    ∧ p.tree.children ≠ [] ∧ ∀ l ∈ p.tree.value :: p.above, l.isOmitted conversion = false := by
  rw [← isKept_iff conversion ⟨p.tree, p.tree.value :: p.above⟩]
  rfl

/-- What is reported for the component of a design that stands below layers of which none is
omitted: the first text layer in it that has layers inside and becomes a widget. -/
theorem error?_markup_convert (node : Node) (above : List Layer)
    (habove : ∀ l ∈ above, l.isOmitted conversion = false) :
    error? (Component.markup (convert conversion .standard node))
      = ((node.placesFrom above).find? fun p => IsFullText conversion p).map
        fun p => ⟨p.tree.value.id⟩ := by
  induction node using Tree.children_induction generalizing above with
  | node l children ih =>
    by_cases homitted : l.isOmitted conversion = true
    · -- Neither a placeholder nor anything inside the layer it stands for is looked at.
      have hnone : (Tree.placesFrom above ⟨l, children⟩).find? (fun p => IsFullText conversion p)
          = none := by
        refine List.find?_eq_none.mpr fun p hp hfull => ?_
        have hshown := ((isFullText_iff conversion p).mp (of_decide_eq_true hfull)).2.2
        have hl := hshown l (Tree.value_mem_of_mem_placesFrom hp)
        exact Bool.false_ne_true (hl.symm.trans homitted)
      rw [hnone, convert_node, if_pos homitted, Tree.leaf, Component.error?_markup]
      rfl
    · have hshown : l.isOmitted conversion = false := by simpa using homitted
      have hbelow : ∀ m ∈ l :: above, m.isOmitted conversion = false :=
        List.forall_mem_cons.mpr ⟨hshown, habove⟩
      have hroot : IsFullText conversion ⟨⟨l, children⟩, above⟩
          ↔ l.kind = .text ∧ children ≠ [] := by
        rw [isFullText_iff]
        exact ⟨fun h => ⟨h.1, h.2.1⟩, fun h => ⟨h.1, h.2, hbelow⟩⟩
      have hkind : (l.widget conversion .standard).kind = .text ↔ l.kind = .text := by
        rw [l.kind_widget conversion .standard hshown, Classifier.classify_standard_eq_text_iff]
      rw [convert_node, if_neg homitted, Component.error?_markup, Layer.omitted_widget, hshown,
        Layer.id_widget, Tree.placesFrom, List.find?_cons]
      by_cases htext : l.kind = .text
      · by_cases hnil : children = []
        · subst hnil
          simp [hroot, hkind, htext, Tree.placesOfAllFrom]
        · simp [hroot, hkind, htext, hnil]
      · have hinside : (children.map (convert conversion .standard)).findSome?
              (fun c => error? (Component.markup c))
            = ((Tree.placesOfAllFrom (l :: above) children).find?
              fun p => IsFullText conversion p).map fun p => ⟨p.tree.value.id⟩ := by
          rw [Tree.placesOfAllFrom_eq_flatMap, List.find?_flatMap, List.map_findSome?,
            List.findSome?_map]
          exact findSome?_congr fun t ht => ih t ht (l :: above) hbelow
        simp [hroot, hkind, htext, hinside]

/-! ### Designs with a source -/

/-- No text layer has layers inside. -/
def TextsAreLeaves (n : Node) : Prop :=
  ∀ t ∈ n.subtrees, t.value.kind = .text → t.children = []

theorem textsAreLeaves_iff (l : Layer) (children : List Node) : TextsAreLeaves ⟨l, children⟩
    ↔ (l.kind = .text → children = []) ∧ ∀ n ∈ children, TextsAreLeaves n := by
  simp only [TextsAreLeaves, Tree.subtrees_node, List.forall_mem_cons, List.forall_mem_flatMap]

theorem TextsAreLeaves.of_mem_subtrees {n m : Node} (h : n.TextsAreLeaves)
    (hm : m ∈ n.subtrees) : m.TextsAreLeaves :=
  fun t ht => h t (Tree.mem_subtrees_trans ht hm)

/-- Where text layers have nothing inside, texts have nothing inside either. -/
theorem TextsAreLeaves.convert {n : Node} (h : n.TextsAreLeaves) :
    Component.TextsAreLeaves (convert conversion .standard n) := by
  induction n using Tree.children_induction with
  | node l children ih =>
    obtain ⟨hroot, hchildren⟩ := (textsAreLeaves_iff l children).mp h
    rw [convert_node]
    split
    · exact Component.textsAreLeaves_leaf _
    · next homitted =>
      have hshown : l.isOmitted conversion = false := by simpa using homitted
      refine (Component.textsAreLeaves_iff _ _).mpr ⟨fun _ hkind => ?_, ?_⟩
      · rw [l.kind_widget conversion .standard hshown,
          Classifier.classify_standard_eq_text_iff] at hkind
        rw [hroot hkind, List.map_nil]
      · exact List.forall_mem_map.mpr fun t ht => ih t ht (hchildren t ht)

/-- **A design has no source for the first text layer with layers inside that becomes a widget**, and
this is the only reason. So where text layers have nothing inside, every part of the design has a
source, and there is a project for any of its parts. -/
theorem emit_fails_at_first_full_text (node : Node) :
    (∀ indent, (∃ e, (convert conversion .standard node).emit indent = .error e)
        ↔ ∃ p ∈ node.places, IsFullText conversion p)
      ∧ (∀ indent e, (convert conversion .standard node).emit indent = .error e →
        ∃ p, node.places.find? (fun p => IsFullText conversion p) = some p
          ∧ e = ⟨p.tree.value.id⟩)
      ∧ (node.TextsAreLeaves → ∀ parts : List Node, (∀ n ∈ parts, n ∈ node.subtrees) →
        ∀ options (tokens : Option TokenSet),
          (∀ n ∈ parts, ∃ text, (convert conversion .standard n).source options = .ok text)
          ∧ (parts ≠ [] ∨ tokens ≠ none → ∃ project, Project.generate options
            (parts.map (convert conversion .standard)) tokens = .ok project)) := by
  have hreported : ∀ indent e, (convert conversion .standard node).emit indent = .error e ↔
      ∃ p, node.places.find? (fun p => IsFullText conversion p) = some p
        ∧ e = ⟨p.tree.value.id⟩ := by
    intro indent e
    rw [Component.emit_eq_error_iff, error?_markup_convert conversion node [] (by simp),
      Option.map_eq_some_iff]
    simp only [eq_comm (a := e)]
    rfl
  refine ⟨fun indent => ?_, fun indent e he => (hreported indent e).mp he, ?_⟩
  · constructor
    · rintro ⟨e, he⟩
      obtain ⟨p, hp, -⟩ := (hreported indent e).mp he
      exact ⟨p, List.mem_of_find?_eq_some hp, by simpa using List.find?_some hp⟩
    · rintro ⟨p, hp, hfull⟩
      have hsome : (node.places.find? fun p => IsFullText conversion p).isSome :=
        List.find?_isSome.mpr ⟨p, hp, decide_eq_true hfull⟩
      obtain ⟨q, hq⟩ := Option.isSome_iff_exists.mp hsome
      exact ⟨_, (hreported indent _).mpr ⟨q, hq, rfl⟩⟩
  · intro hleaves parts hparts options tokens
    have hcomponents : ∀ n ∈ parts, Component.TextsAreLeaves (convert conversion .standard n) :=
      fun n hn => (hleaves.of_mem_subtrees (hparts n hn)).convert conversion
    refine ⟨fun n hn => Component.exists_fileSource options _ (hcomponents n hn), fun hsome => ?_⟩
    refine Project.exists_project (hsome.imp_left fun hne => ?_) (List.forall_mem_map.mpr hcomponents)
    exact mt List.map_eq_nil_iff.mp hne

/-- A card with three texts that have a box inside, of which the first is hidden; and the card with
a text and a button beside each other. -/
theorem emit_fails_at_shown_note :
    let box : Node := .leaf { id := "1:9", kind := .rectangle }
    let note (id : String) (visible : Option Bool) : Node :=
      ⟨{ id := id, kind := .text, visible := visible }, [box]⟩
    let card (inside : List Node) : Node := ⟨{ id := "1:1", name := "Card", kind := .frame }, inside⟩
    let full := card [note "1:2" (some false), note "1:3" none, note "1:4" none]
    let button : Node := ⟨{ id := "1:6", name := "Button", kind := .frame }, [box]⟩
    let plain := card [.leaf { id := "1:5", kind := .text }, button]
    (∃ e, (convert {} .standard full).emit 0 = .error e)
      ∧ (∀ e, (convert {} .standard full).emit 0 = .error e → e = ⟨"1:3"⟩)
      ∧ plain.TextsAreLeaves
      ∧ ∃ project, Project.generate {} [convert {} .standard plain] none = .ok project := by
  intro box note card full button plain
  obtain ⟨hfails, hfirst, -⟩ := emit_fails_at_first_full_text {} full
  obtain ⟨-, -, hparts⟩ := emit_fails_at_first_full_text {} plain
  have hnote : ∃ p ∈ full.places, IsFullText {} p := by decide +kernel
  have hid : (full.places.find? fun p => IsFullText {} p).map (·.tree.value.id) = some "1:3" := by
    decide +kernel
  have hleaves : plain.TextsAreLeaves := by
    unfold TextsAreLeaves
    decide +kernel
  have hself : ∀ n ∈ [plain], n ∈ plain.subtrees := by simp [Tree.self_mem_subtrees]
  refine ⟨(hfails 0).mpr hnote, fun e he => ?_, hleaves, ?_⟩
  · obtain ⟨p, hp, rfl⟩ := hfirst 0 e he
    rw [hp] at hid
    exact congrArg TextWithChildren.mk (Option.some.inj hid)
  · exact (hparts hleaves [plain] hself {} none).2 (.inl (List.cons_ne_nil _ _))

end Node

end Handoff
