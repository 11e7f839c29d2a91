import Handoff.Component.Convert
import Handoff.Proofs.Lineage

/-!
# The outline of a component

The component of a design has the outline of the design without what is inside
its hidden layers: the same ids, names and depths in visiting order
(`Node.convert_cutAtHidden`). A layer is kept when no layer above it is hidden
(`Node.keptPlaces`), and of the layers that are kept the hidden ones are those
that become placeholders.
-/

namespace Handoff

namespace Layer

theorem isOmitted_iff (options : ConversionOptions) (l : Layer) :
    l.isOmitted options = true ↔ l.visible = some false ∧ options.includeHidden = false := by
  simp [isOmitted, isVisible]

variable (options : ConversionOptions) (classifier : Classifier) (l : Layer)

theorem id_widget : (l.widget options classifier).id = l.id := by
  unfold widget
  split <;> rfl

theorem name_widget : (l.widget options classifier).name = l.name := by
  unfold widget
  split <;> rfl

theorem omitted_widget : (l.widget options classifier).omitted = l.isOmitted options := by
  unfold widget
  split
  · next h => exact h.symm
  · next h => exact (Bool.eq_false_iff.mpr h).symm

theorem widget_of_isOmitted (h : l.isOmitted options = true) :
    l.widget options classifier = .placeholder l.id l.name := if_pos h

end Layer

namespace Node

/-- A layer is kept when no layer above it is hidden, or when hidden layers are converted too. -/
def IsKept (options : ConversionOptions) (p : Place Layer) : Prop :=
  options.includeHidden = true ∨ ∀ l ∈ p.above, l.visible ≠ some false

instance (options : ConversionOptions) : DecidablePred (IsKept options) :=
  fun _ => inferInstanceAs (Decidable (_ ∨ _))

/-- The places of a design without those inside hidden layers. -/
def keptPlaces (options : ConversionOptions) (node : Node) : List (Place Layer) :=
  node.places.filter fun p => IsKept options p

/-- The component is the design cut at its hidden layers. -/
structure CutAtHidden (options : ConversionOptions) (node : Node) (c : Component) : Prop where
  /-- The widgets have the ids, the names and the depths of the layers that are kept. -/
  outline : c.walk.map (fun v => (v.1.value.id, v.1.value.name, v.2))
    = (keptPlaces options node).map fun p => (p.tree.value.id, p.tree.value.name, p.above.length)
  /-- Those of hidden layers are marked, unless hidden layers are converted too. -/
  omitted : c.walk.map (fun v => v.1.value.omitted) = (keptPlaces options node).map fun p =>
    decide (p.tree.value.visible = some false ∧ options.includeHidden = false)
  /-- A widget that is marked is a frame without attributes and without widgets inside. -/
  placeholder : ∀ v ∈ c.walk, v.1.value.omitted = true →
    v.1 = ⟨{ id := v.1.value.id, name := v.1.value.name, kind := .frame, omitted := true }, []⟩
  /-- There is a widget for every layer that is kept. -/
  count : c.count = (keptPlaces options node).length

variable (options : ConversionOptions) (classifier : Classifier)

/-- Conversion goes from a layer to the layers inside it, and stops at one that is omitted. -/
theorem convert_node (l : Layer) (children : List Node) :
    convert options classifier ⟨l, children⟩ =
      if l.isOmitted options then .leaf (.placeholder l.id l.name)
      else ⟨l.widget options classifier, children.map (convert options classifier)⟩ := by
  rw [convert, Tree.cut, Tree.map]
  split
  · next h => rw [Layer.widget_of_isOmitted options classifier l h, Tree.mapAll, Tree.leaf]
  · rw [Tree.cutAll_eq_map, Tree.mapAll_eq_map, List.map_map]
    rfl

theorem isKept_iff (p : Place Layer) :
    IsKept options p ↔ ∀ l ∈ p.above, l.isOmitted options = false := by
  simp only [Bool.eq_false_iff, ne_eq, Layer.isOmitted_iff, not_and, IsKept]
  cases options.includeHidden <;> simp

/-- Below a layer that is omitted nothing is kept. -/
theorem filter_isKept_eq_nil {above : List Layer} {l : Layer} (hl : l ∈ above)
    (h : l.isOmitted options = true) (ts : List Node) :
    (Tree.placesOfAllFrom above ts).filter (fun p => IsKept options p) = [] := by
  rw [List.filter_eq_nil_iff, Tree.placesOfAllFrom_eq_flatMap]
  intro p hp hkept
  obtain ⟨t, -, hp⟩ := List.mem_flatMap.mp hp
  have hnot := (isKept_iff options p).mp (of_decide_eq_true hkept) l (Tree.subset_above hp hl)
  exact Bool.false_ne_true (hnot.symm.trans h)

theorem value_convert (node : Node) :
    (convert options classifier node).value = node.value.widget options classifier := by
  obtain ⟨l, children⟩ := node
  rw [convert_node]
  split
  · next h => exact (Layer.widget_of_isOmitted options classifier l h).symm
  · rfl

/--
The visits of the component of a design that stands below layers of which none is omitted: the
components of the layers that are kept.
-/
theorem walkFrom_convert (node : Node) (above : List Layer)
    (habove : ∀ l ∈ above, l.isOmitted options = false) :
    (convert options classifier node).walkFrom above.length
      = ((node.placesFrom above).filter fun p => IsKept options p).map fun p =>
        (convert options classifier p.tree, p.above.length) := by
  induction node using Tree.children_induction generalizing above with
  | node l children ih =>
    have hroot : IsKept options ⟨⟨l, children⟩, above⟩ := (isKept_iff options _).mpr habove
    rw [Tree.placesFrom, List.filter_cons, if_pos (decide_eq_true hroot), List.map_cons, convert_node]
    split
    · next h =>
      rw [filter_isKept_eq_nil options List.mem_cons_self h]
      rfl
    · next h =>
      have hbelow : ∀ m ∈ l :: above, m.isOmitted options = false :=
        List.forall_mem_cons.mpr ⟨Bool.eq_false_iff.mpr h, habove⟩
      rw [Tree.walkFrom, Tree.walkAllFrom_eq_flatMap, Tree.placesOfAllFrom_eq_flatMap,
        List.filter_flatMap, List.map_flatMap, List.flatMap_map]
      congr 1
      exact List.flatMap_congr fun t ht => ih t ht (l :: above) hbelow

/-- The visits of the component of a design are the widgets of the layers that are kept. -/
theorem walk_convert (node : Node) :
    (convert options classifier node).walk.map (fun v => (v.1.value, v.2))
      = (keptPlaces options node).map fun p =>
        (p.tree.value.widget options classifier, p.above.length) := by
  have hwalk := walkFrom_convert options classifier node [] (by simp)
  rw [List.length_nil] at hwalk
  rw [Tree.walk, hwalk, List.map_map]
  exact List.map_congr_left fun p _ =>
    Prod.ext (value_convert options classifier p.tree) rfl

/-- The widgets of a design in visiting order. -/
theorem values_convert (node : Node) : (convert options classifier node).values
    = (keptPlaces options node).map fun p => p.tree.value.widget options classifier := by
  have hwalk := congrArg (List.map Prod.fst) (walk_convert options classifier node)
  rw [List.map_map, List.map_map] at hwalk
  exact (Tree.values_eq_map_walkFrom 0 _).trans hwalk

/-- A widget that is marked as omitted in the component of a design is a placeholder. -/
theorem eq_placeholder_of_omitted (node : Node) :
    ∀ v ∈ (convert options classifier node).walk, v.1.value.omitted = true →
      v.1 = .leaf (.placeholder v.1.value.id v.1.value.name) := by
  induction node using Tree.children_induction with
  | node l children ih =>
    rw [convert_node]
    split
    · simp [Tree.leaf, Tree.walk, Tree.walkFrom, Tree.walkAllFrom, Widget.placeholder]
    · next h =>
      have hwalk := Tree.forall_walk_iff
        (fun c : Component => c.value.omitted = true → c = .leaf (.placeholder c.value.id c.value.name))
        (l.widget options classifier) (children.map (convert options classifier))
      refine hwalk.mpr ⟨fun homitted => ?_, fun c hc => ?_⟩
      · rw [Layer.omitted_widget] at homitted
        exact absurd homitted h
      · obtain ⟨t, ht, rfl⟩ := List.mem_map.mp hc
        exact ih t ht

/--
**The component of a design is the design cut at its hidden layers.** The places of a design are its
visits, and those that are kept are what becomes a widget.
-/
theorem convert_cutAtHidden (node : Node) :
    node.walk = node.places.map (fun p => (p.tree, p.above.length))
      ∧ CutAtHidden options node (convert options classifier node) := by
  have hwalk := walk_convert options classifier node
  refine ⟨Tree.walk_eq_map_places node, ?_, ?_, ?_, ?_⟩
  · have houtline := congrArg (List.map fun x : Widget × Nat => (x.1.id, x.1.name, x.2)) hwalk
    simpa only [List.map_map, Function.comp_def, Layer.id_widget, Layer.name_widget] using houtline
  · have homitted := congrArg (List.map fun x : Widget × Nat => x.1.omitted) hwalk
    simp only [List.map_map, Function.comp_def, Layer.omitted_widget] at homitted
    rw [homitted]
    refine List.map_congr_left fun p _ => ?_
    rw [Bool.eq_iff_iff, Layer.isOmitted_iff, decide_eq_true_iff]
  · exact eq_placeholder_of_omitted options classifier node
  · have hlength := congrArg List.length hwalk
    rwa [List.length_map, List.length_map, Tree.walk, Tree.length_walkFrom] at hlength

end Node

end Handoff
