import Handoff.Proofs.Component.Outline
import Handoff.Proofs.Project.Source

/-!
# The primitives that a component opens

The source of a component opens one element for each component that is not inside a
placeholder, and its tag is that of the primitive which the component becomes
(`Component.tags_shown`). The names that are imported are taken from all components,
also from those inside placeholders. So every tag that is opened is imported, and where
placeholders have nothing inside, as in the component of a design, every name that is
imported is opened (`Component.emit_opens_primitives`).
-/

namespace Handoff

/-! ### Cut trees -/

namespace Tree

variable {α : Type} {stop : α → Bool}

/-- What is left of a subtree is the subtree, cut like the tree. -/
theorem exists_eq_cut_of_mem_subtrees {t s : Tree α} (h : s ∈ (t.cut stop).subtrees) :
    ∃ r ∈ t.subtrees, s = r.cut stop := by
  induction t using children_induction with
  | node value children ih =>
    rw [cut, subtrees_node] at h
    rcases List.mem_cons.mp h with rfl | hbelow
    · exact ⟨⟨value, children⟩, self_mem_subtrees _, by rw [cut]⟩
    · by_cases hstop : stop value = true
      · simp [hstop] at hbelow
      · rw [if_neg hstop, cutAll_eq_map, List.flatMap_map] at hbelow
        obtain ⟨t, ht, hs⟩ := List.mem_flatMap.mp hbelow
        obtain ⟨r, hr, hcut⟩ := ih t ht hs
        exact ⟨r, mem_subtrees_trans hr (mem_subtrees_of_mem_children ht), hcut⟩

/-- A tree with nothing below the nodes that it is cut at stays as it is. -/
theorem cut_eq_self {t : Tree α} (h : ∀ s ∈ t.subtrees, stop s.value = true → s.children = []) :
    t.cut stop = t := by
  induction t using children_induction with
  | node value children ih =>
    rw [cut]
    by_cases hstop : stop value = true
    · have hnone : children = [] := h _ (self_mem_subtrees _) hstop
      rw [if_pos hstop, hnone]
    · have hchildren : ∀ t ∈ children, t.cut stop = t := by
        intro t ht
        exact ih t ht fun s hs => h s (mem_subtrees_trans hs (mem_subtrees_of_mem_children ht))
      rw [if_neg hstop, cutAll_eq_map, List.map_congr_left hchildren, List.map_id']

end Tree

/-! ### Tags -/

namespace Element

mutual
/-- The tags in an element, in the order in which they are opened. -/
def tags : Element → List String
  | .text _ => []
  | .tagged tag _ inside => tag :: tagsOfAll inside
/-- The tags in one element after the other. -/
def tagsOfAll : List Element → List String
  | [] => []
  | e :: es => tags e ++ tagsOfAll es
end

theorem tagsOfAll_eq_flatMap (es : List Element) : tagsOfAll es = es.flatMap tags := by
  induction es with
  | nil => rfl
  | cons e es ih => simp [tagsOfAll, ih]

end Element

namespace Primitive

/-- What a component becomes does not depend on what is inside placeholders. -/
theorem ofComponent_cut (c : Component) : ofComponent (c.cut (·.omitted)) = ofComponent c := by
  obtain ⟨w, children⟩ := c
  rw [Tree.cut]
  by_cases homitted : w.omitted = true
  · simp [ofComponent, homitted]
  · rw [if_neg homitted, Tree.cutAll_eq_map]
    simp only [ofComponent, List.isEmpty_map]

/-- The primitives stand in the order of their tags, and no two have the same. -/
theorem pairwise_tag_all : (all.map tag).Pairwise (· < ·) := by decide

end Primitive

namespace Component

/-- No placeholder has anything inside. -/
def PlaceholdersAreLeaves (c : Component) : Prop :=
  ∀ s ∈ c.subtrees, s.value.omitted = true → s.children = []

theorem mem_primitives_iff_subtrees (p : Primitive) (c : Component) :
    p ∈ c.primitives ↔ ∃ s ∈ c.subtrees, Primitive.ofComponent s = p := by
  rw [mem_primitives_iff, Tree.subtrees]
  simp only [List.mem_map, exists_exists_and_eq_and]

/-- A component that has a markup opens a tag for each component that is not inside a placeholder. -/
theorem tags_shown {c : Component} {m : Markup} (h : c.markup = .ok m) :
    c.shown.tags = (c.cut (·.omitted)).subtrees.map fun s => (Primitive.ofComponent s).tag := by
  induction c using Tree.children_induction generalizing m with
  | node w children ih =>
    have hroot : Primitive.ofComponent (Tree.cut (·.omitted) ⟨w, children⟩)
        = Primitive.ofComponent ⟨w, children⟩ := Primitive.ofComponent_cut ⟨w, children⟩
    rw [Tree.cut] at hroot ⊢
    rw [Tree.subtrees_node, List.map_cons, hroot]
    rcases cases_of_markup h with homitted | ⟨hshown, hkind, rfl⟩ | ⟨hshown, hkind, hchildren⟩
    · simp [shown, homitted, Element.tags, Element.tagsOfAll, Primitive.ofComponent, Primitive.tag]
    · have htexts : ∀ texts : List String, (texts.map Element.text).flatMap Element.tags = [] := by
        intro texts
        simp [Element.tags]
      simp [shown, hshown, hkind, Element.tags, Element.tagsOfAll_eq_flatMap, htexts, Tree.cutAll]
    · have htail : ((if w.omitted = true then [] else Tree.cutAll (·.omitted) children).flatMap
            Tree.subtrees).map (fun s => (Primitive.ofComponent s).tag)
          = children.flatMap fun c => (shown c).tags := by
        rw [hshown, if_neg Bool.false_ne_true, Tree.cutAll_eq_map, List.flatMap_map, List.map_flatMap]
        refine List.flatMap_congr fun c hc => ?_
        obtain ⟨m, hm⟩ := hchildren c hc
        exact (ih c hc hm).symm
      rw [htail, shown]
      simp only [hshown, Bool.false_eq_true, if_false, Element.tags, Element.tagsOfAll_eq_flatMap,
        shownAll_eq_map, List.flatMap_map]

/-- Every tag that is opened is that of a primitive which is used. -/
theorem mem_primitives_of_mem_tags {c : Component} {m : Markup} (h : c.markup = .ok m) :
    ∀ tag ∈ c.shown.tags, tag ∈ c.primitives.map Primitive.tag := by
  intro tag htag
  rw [tags_shown h] at htag
  obtain ⟨s, hs, rfl⟩ := List.mem_map.mp htag
  obtain ⟨r, hr, rfl⟩ := Tree.exists_eq_cut_of_mem_subtrees hs
  rw [Primitive.ofComponent_cut]
  exact List.mem_map_of_mem ((mem_primitives_iff_subtrees _ c).mpr ⟨r, hr, rfl⟩)

/-- Every primitive that is used is opened, unless it is used inside a placeholder only. -/
theorem tag_mem_tags_of_mem_primitives {c : Component} {m : Markup} (h : c.markup = .ok m)
    (hleaves : c.PlaceholdersAreLeaves) : ∀ p ∈ c.primitives, p.tag ∈ c.shown.tags := by
  intro p hp
  obtain ⟨s, hs, rfl⟩ := (mem_primitives_iff_subtrees p c).mp hp
  rw [tags_shown h, Tree.cut_eq_self hleaves]
  exact List.mem_map_of_mem hs

/-- Placeholders that layers are converted to have nothing inside. -/
theorem placeholdersAreLeaves_convert (conversion : ConversionOptions) (classifier : Classifier)
    (node : Node) : (Node.convert conversion classifier node).PlaceholdersAreLeaves := by
  intro s hs homitted
  obtain ⟨visit, hvisit, rfl⟩ := List.mem_map.mp hs
  have hleaf := Node.eq_placeholder_of_omitted conversion classifier node visit hvisit homitted
  rw [hleaf]
  rfl

/-! ### What is imported -/

/-- **What is imported is what is opened.** Every tag in the source of a component is imported. Where
placeholders have nothing inside, as in every component of a design, every primitive that is imported
is opened. The imports stand in alphabetical order, and a file has them in its import lines. -/
theorem emit_opens_primitives {c : Component} {column : Nat} {text : String}
    (h : c.emit column = .ok text) :
    ∃ e, Element.read? text = some e
      ∧ (∀ tag ∈ e.tags, tag ∈ c.primitives.map Primitive.tag)
      ∧ (c.PlaceholdersAreLeaves → ∀ p ∈ c.primitives, p.tag ∈ e.tags)
      ∧ (∀ conversion classifier node, Node.convert conversion classifier node = c →
        c.PlaceholdersAreLeaves)
      ∧ c.primitives.Nodup
      ∧ (c.primitives.map Primitive.tag).Pairwise (· < ·)
      ∧ ∀ options name file, Script.isIdentifier name = true →
        c.fileSource options name = .ok file → ∃ source, Source.read? file = some source
          ∧ source.imported = "React" :: c.primitives.map Primitive.tag ∧ source.shown = e := by
  obtain ⟨m, hm, hsource⟩ : ∃ m, c.markup = .ok m ∧ text = m.source column := by
    cases hm : c.markup with
    | error e => simp [emit, hm, Except.map] at h
    | ok m =>
      rw [emit, hm] at h
      exact ⟨m, rfl, (Except.ok.inj h).symm⟩
  obtain ⟨n, hn, hnamed, hshown⟩ := hasMarkup_of_markup hm
  obtain rfl := Except.ok.inj (hn.symm.trans hm)
  refine ⟨c.shown, ?_, mem_primitives_of_mem_tags hm, tag_mem_tags_of_mem_primitives hm, ?_, ?_, ?_, ?_⟩
  · rw [hsource, Element.read?_source hnamed, hshown]
  · rintro conversion classifier node rfl
    exact placeholdersAreLeaves_convert conversion classifier node
  · exact List.Nodup.filter _ (by decide)
  · exact Primitive.pairwise_tag_all.sublist (List.filter_sublist.map Primitive.tag)
  · intro options name file hname hfile
    exact ⟨c.said name, read?_fileSource hname hfile, rfl, rfl⟩

/-- A box with a picture that has a text on it, and a placeholder: the pressable box that the placeholder
stands for is neither opened nor imported. -/
theorem emit_opens_primitives_card :
    let title : Component := .leaf { id := "1:3", name := "", kind := .text, text := some "Hi" }
    let photo : Component :=
      ⟨{ id := "1:2", name := "", kind := .image, imageRef := some "photo" }, [title]⟩
    let hidden : Component := .leaf { id := "1:4", name := "", kind := .button, omitted := true }
    let c : Component := ⟨{ id := "1:1", name := "", kind := .frame }, [photo, hidden]⟩
    ∃ text e, c.emit 0 = .ok text ∧ Element.read? text = some e ∧ c.PlaceholdersAreLeaves
      ∧ c.primitives = [.imageBackground, .text, .view]
      ∧ ∀ tag, tag ∈ e.tags ↔ tag ∈ ["ImageBackground", "Text", "View"] := by
  intro title photo hidden c
  have hemit : c.emit 0 = .ok _ := rfl
  obtain ⟨e, hread, hsub, hall, -⟩ := emit_opens_primitives hemit
  have hprimitives : c.primitives = [.imageBackground, .text, .view] := by decide
  have hleaves : c.PlaceholdersAreLeaves := by
    simp [PlaceholdersAreLeaves, Tree.subtrees, Tree.walk, Tree.walkFrom, Tree.walkAllFrom, c, title,
      photo, hidden, Tree.leaf]
  refine ⟨_, e, hemit, hread, hleaves, hprimitives, fun tag => ⟨fun htag => ?_, fun htag => ?_⟩⟩
  · have hmem := hsub tag htag
    rw [hprimitives] at hmem
    exact hmem
  · have hmem : tag ∈ c.primitives.map Primitive.tag := by
      rw [hprimitives]
      exact htag
    obtain ⟨p, hp, rfl⟩ := List.mem_map.mp hmem
    exact hall hleaves p hp

end Component

end Handoff
