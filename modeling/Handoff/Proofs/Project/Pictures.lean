import Handoff.Proofs.Component.Outline
import Handoff.Proofs.Distinct
import Handoff.Proofs.Json.Pretty
import Handoff.Proofs.Project.Files

/-!
# Pictures that are shown and pictures that are asked for

The pictures that a component shows can be read off its source: they are the
elements for pictures that have a source, with the id and the source of each
(`Element.pictures`). In the component of a design only a widget that becomes
such an element has a picture (`Node.kind_of_imageRef`), and so the pictures that
are asked for are those that are shown, the first one for each id
(`Project.assets_eq_shown`). The list of pictures is a file that is read back as
the requests (`AssetRequest.listed?_manifest`).
-/

namespace Handoff

/-! ### Pictures in an element -/

namespace Element

/-- The id and the source of an element for a picture, if it has a source. -/
def picture? (tag : String) (attributes : List (String × Script.Value)) : Option (String × String) :=
  if tag = "Image" ∨ tag = "ImageBackground" then
    match attributes.lookup "testID", attributes.lookup "source" with
    | some (.string id), some (.object [("uri", .string uri)]) => some (id, uri)
    | _, _ => none
  else none

mutual
/-- The pictures in an element with their ids, in the order in which their elements begin. -/
def pictures : Element → List (String × String)
  | .text _ => []
  | .tagged tag attributes inside => (picture? tag attributes).toList ++ picturesOfAll inside
/-- The pictures in one element after the other. -/
def picturesOfAll : List Element → List (String × String)
  | [] => []
  | e :: es => pictures e ++ picturesOfAll es
end

theorem picturesOfAll_eq_flatMap (es : List Element) : picturesOfAll es = es.flatMap pictures := by
  induction es with
  | nil => rfl
  | cons e es ih => simp [picturesOfAll, ih]

end Element

/-! ### Pictures in a component -/

namespace Component

/-- A widget that becomes a picture shows its picture. -/
theorem picture?_shownAttributes (w : Widget) {primitive : Primitive}
    (h : primitive = .image ∨ primitive = .imageBackground) :
    Element.picture? primitive.tag (shownAttributes w primitive)
      = w.imageRef.map fun uri => (w.id, uri) := by
  have htag : primitive.tag = "Image" ∨ primitive.tag = "ImageBackground" := by
    rcases h with rfl | rfl
    · exact .inl rfl
    · exact .inr rfl
  have hid : (shownAttributes w primitive).lookup "testID" = some (.string w.id) := by
    simp [shownAttributes]
  have hsource : (shownAttributes w primitive).lookup "source"
      = w.imageRef.map fun uri => .object [("uri", .string uri)] := by
    rw [shownAttributes, if_pos h]
    cases w.imageRef with
    | some uri => simp [List.lookup_cons]
    | none => split <;> split <;> simp [List.lookup_cons]
  rw [Element.picture?, if_pos htag, hid, hsource]
  cases w.imageRef <;> rfl

/-- Only pictures have a picture. -/
def PicturesAreImages (c : Component) : Prop :=
  ∀ w ∈ c.values, w.imageRef ≠ none → w.kind = .image

theorem picturesAreImages_iff (w : Widget) (children : List (Tree Widget)) :
    PicturesAreImages ⟨w, children⟩
      ↔ (w.imageRef ≠ none → w.kind = .image) ∧ ∀ c ∈ children, PicturesAreImages c := by
  simp only [PicturesAreImages, Tree.values, Tree.valuesAll_eq_flatMap, List.forall_mem_cons,
    List.forall_mem_flatMap]

theorem assetRequests_placeholder (scale : UInt8) {w : Widget} (children : List (Tree Widget))
    (h : w.omitted = true) : assetRequests scale ⟨w, children⟩ = [] := by
  simp [assetRequests, Tree.cut, Tree.values, Tree.valuesAll, h]

theorem assetRequests_node (scale : UInt8) {w : Widget} (children : List (Tree Widget))
    (h : w.omitted = false) : assetRequests scale ⟨w, children⟩
      = (w.imageRef.map fun imageRef => ⟨w.id, imageRef, scale⟩).toList
        ++ children.flatMap (assetRequests scale) := by
  simp only [assetRequests, Tree.cut, h, Tree.values, Tree.valuesAll_eq_flatMap, Tree.cutAll_eq_map,
    List.filterMap_cons, List.flatMap_map, List.filterMap_flatMap, Bool.false_eq_true, if_false]
  cases w.imageRef <;> rfl

/-- The element of a widget is a picture with a source where the widget has a picture. -/
theorem picture?_of_widget {w : Widget} (children : List (Tree Widget)) (hshown : w.omitted = false)
    (himage : w.imageRef ≠ none → w.kind = .image) :
    Element.picture? (Primitive.ofComponent ⟨w, children⟩).tag
        (shownAttributes w (Primitive.ofComponent ⟨w, children⟩))
      = w.imageRef.map fun uri => (w.id, uri) := by
  by_cases hkind : w.kind = .image
  · refine picture?_shownAttributes w ?_
    simp only [Primitive.ofComponent, hshown, hkind, Bool.false_eq_true, if_false]
    split
    · exact .inl rfl
    · exact .inr rfl
  · have hnone : w.imageRef = none := by
      by_contra hsome
      exact hkind (himage hsome)
    have htag : ¬((Primitive.ofComponent ⟨w, children⟩).tag = "Image"
        ∨ (Primitive.ofComponent ⟨w, children⟩).tag = "ImageBackground") := by
      cases hk : w.kind with
      | image => exact absurd hk hkind
      | frame | button | text => simp [Primitive.ofComponent, Primitive.tag, hshown, hk]
    rw [Element.picture?, if_neg htag, hnone, Option.map_none]

/-- **The pictures of a component are those that it shows**, in the same order. -/
theorem assetRequests_eq_pictures (scale : UInt8) {c : Component} {m : Markup}
    (hmarkup : c.markup = .ok m) (himages : c.PicturesAreImages) :
    c.assetRequests scale = c.shown.pictures.map fun p => ⟨p.1, p.2, scale⟩ := by
  induction c using Tree.children_induction generalizing m with
  | node w children ih =>
    obtain ⟨himage, hchildren⟩ := (picturesAreImages_iff w children).mp himages
    rcases cases_of_markup hmarkup with homitted | ⟨hshown, hkind, rfl⟩ | ⟨hshown, hkind, hmarkups⟩
    · rw [assetRequests_placeholder scale children homitted]
      simp [shown, homitted, Element.pictures, Element.picture?, Element.picturesOfAll]
    · have htexts : ∀ texts : List String, Element.picturesOfAll (texts.map .text) = [] := by
        intro texts
        simp [Element.picturesOfAll_eq_flatMap, Element.pictures]
      have hown := picture?_of_widget [] hshown himage
      rw [assetRequests_node scale [] hshown, shown]
      simp only [hshown, hkind, Bool.false_eq_true, if_false, Element.pictures, hown, htexts,
        List.flatMap_nil, List.append_nil]
      cases w.imageRef <;> rfl
    · have hown := picture?_of_widget children hshown himage
      have hmore : children.flatMap (assetRequests scale)
          = (children.flatMap fun c => (shown c).pictures).map fun p => ⟨p.1, p.2, scale⟩ := by
        rw [List.map_flatMap]
        refine List.flatMap_congr fun c hc => ?_
        obtain ⟨m, hm⟩ := hmarkups c hc
        exact ih c hc hm (hchildren c hc)
      rw [assetRequests_node scale children hshown, shown]
      simp only [hshown, Bool.false_eq_true, if_false, Element.pictures, hown, hmore, shownAll_eq_map,
        Element.picturesOfAll_eq_flatMap, List.flatMap_map, List.map_append]
      cases w.imageRef <;> rfl

end Component

/-! ### Pictures of designs -/

/-- A layer becomes something with a picture only where it becomes a picture. -/
theorem Layer.kind_of_imageRef (conversion : ConversionOptions) (classifier : Classifier) (l : Layer)
    (h : (l.widget conversion classifier).imageRef ≠ none) :
    (l.widget conversion classifier).kind = .image := by
  unfold Layer.widget at h ⊢
  by_cases homitted : l.isOmitted conversion = true
  · rw [if_pos homitted] at h
    exact absurd rfl h
  · rw [if_neg homitted] at h ⊢
    by_contra hkind
    exact h (if_neg hkind)

theorem Node.picturesAreImages_convert (conversion : ConversionOptions) (classifier : Classifier)
    (n : Node) : (convert conversion classifier n).PicturesAreImages := by
  induction n using Tree.children_induction with
  | node l children ih =>
    rw [convert_node]
    split
    · simp [Component.PicturesAreImages, Tree.leaf, Tree.values, Tree.valuesAll, Widget.placeholder]
    · refine (Component.picturesAreImages_iff _ _).mpr ⟨l.kind_of_imageRef conversion classifier, ?_⟩
      exact List.forall_mem_map.mpr ih

/-- Every widget of a design that has a picture asks for it. -/
theorem Node.assetRequests_eq_values (conversion : ConversionOptions) (classifier : Classifier)
    (scale : UInt8) (n : Node) : (convert conversion classifier n).assetRequests scale
      = (convert conversion classifier n).values.filterMap fun w =>
        w.imageRef.map fun imageRef => ⟨w.id, imageRef, scale⟩ := by
  induction n using Tree.children_induction with
  | node l children ih =>
    rw [convert_node]
    split
    · rw [Tree.leaf, Component.assetRequests_placeholder scale [] rfl]
      rfl
    · next homitted =>
      have hshown : (l.widget conversion classifier).omitted = false :=
        (l.omitted_widget conversion classifier).trans (Bool.eq_false_iff.mpr homitted)
      rw [Component.assetRequests_node scale _ hshown, Tree.values, Tree.valuesAll_eq_flatMap,
        List.filterMap_cons, List.filterMap_flatMap, List.flatMap_map, List.flatMap_map,
        List.flatMap_congr ih]
      cases (l.widget conversion classifier).imageRef <;> rfl

/-- The pictures of a design are those of its layers that are kept. -/
theorem Node.assetRequests_convert (conversion : ConversionOptions) (classifier : Classifier)
    (scale : UInt8) (n : Node) : (convert conversion classifier n).assetRequests scale
      = (keptPlaces conversion n).filterMap fun p =>
        (p.tree.value.widget conversion classifier).imageRef.map fun imageRef =>
          ⟨p.tree.value.id, imageRef, scale⟩ := by
  rw [assetRequests_eq_values, values_convert, List.filterMap_map]
  simp only [Function.comp_def, Layer.id_widget]

/-! ### The list of pictures -/

namespace AssetRequest

/-- Reads a request. -/
def ofJson? (v : Json) : Option AssetRequest := do
  let fields ← Json.record? ["nodeId", "imageRef", "scale"] v
  return {
    nodeId := ← fields.required "nodeId" Json.string?
    imageRef := ← fields.required "imageRef" Json.string?
    scale := ← fields.required "scale" Json.uint8? }

/-- The requests that a text lists. -/
def listed? (text : String) : Option (List AssetRequest) :=
  (Json.read? text).bind (Json.list? ofJson?)

theorem ofJson?_toJson (r : AssetRequest) : ofJson? r.toJson = some r := by
  have hscale : Json.uint8? (.integer r.scale.toNat) = some r.scale := by
    have hrange : (0 : Int) ≤ r.scale.toNat ∧ (r.scale.toNat : Int) < (256 : Nat) :=
      ⟨Int.natCast_nonneg _, Int.ofNat_lt.mpr r.scale.toNat_lt⟩
    rw [Json.uint8?, Json.natBelow?, if_pos hrange, Int.toNat_natCast, Option.map_some]
    simp
  simp [ofJson?, toJson, Json.record?, Json.Fields.required, List.lookup_cons, Json.string?, hscale]

theorem isPlain_toJson (r : AssetRequest) : r.toJson.IsPlain := by
  have hscale : r.scale.toNat < 256 := r.scale.toNat_lt
  refine .object (by simp) ?_
  simp only [List.forall_mem_cons]
  exact ⟨.string _, .string _, .integer (by omega) (by omega), by simp⟩

/-- **The list of pictures is read back** as the requests. -/
theorem listed?_manifest (requests : List AssetRequest) :
    listed? (manifest requests) = some requests := by
  have hplain : (Json.array (requests.map toJson)).IsPlain :=
    .array (List.forall_mem_map.mpr fun r _ => r.isPlain_toJson)
  have hdepth : (Json.array (requests.map toJson)).depth ≤ Json.nestingLimit := by
    have hitems : Json.depthOfItems (requests.map toJson) ≤ 1 :=
      Json.depthOfItems_le (List.forall_mem_map.mpr fun r _ => Nat.le_refl _)
    exact Nat.le_trans (Nat.succ_le_succ hitems) (by decide)
  have hmap : (requests.map toJson).mapM ofJson? = some requests := by
    have hread : ofJson? ∘ toJson = fun r => pure (id r) := funext ofJson?_toJson
    rw [List.mapM_map, hread, List.mapM_pure, List.map_id]
    rfl
  rw [listed?, manifest, Json.read?_pretty hplain hdepth]
  exact hmap

end AssetRequest

namespace SourceFile

/-- The pictures that the source in a file shows. -/
def pictures (f : SourceFile) : List (String × String) :=
  match Source.read? f.content with
  | some source => source.shown.pictures
  | none => []

end SourceFile

namespace Project

variable {options : GenerationOptions} {components : List Component} {tokens : Option TokenSet}
  {project : Project}

section Generated

variable (h : generate options components tokens = .ok project)

include h

/-- All files of components are read, and what they show is what the components show. -/
theorem flatMap_pictures_sourceFiles : project.sourceFiles.flatMap SourceFile.pictures
    = components.flatMap fun c => c.shown.pictures := by
  have hread := congrArg (List.map fun read : Option Source => match read with
    | some source => source.shown.pictures
    | none => []) (read?_sourceFiles h)
  rw [List.map_map, List.map_map] at hread
  have hcomponents : components = (components.zip (componentNames components)).map Prod.fst :=
    (List.map_fst_zip (by simp)).symm
  rw [List.flatMap_def, List.flatMap_def]
  conv_rhs => rw [hcomponents, List.map_map]
  exact congrArg List.flatten hread

/-- The pictures of a project are the first of each id among those that are shown. -/
theorem assets_eq_shown (himages : ∀ c ∈ components, c.PicturesAreImages) :
    project.assets = (firstOf (fun p q => p.1 = q.1)
      (project.sourceFiles.flatMap SourceFile.pictures)).map
        fun p => ⟨p.1, p.2, options.assetScale⟩ := by
  have hrequests : components.flatMap (Component.assetRequests options.assetScale)
      = (components.flatMap fun c => c.shown.pictures).map
        fun p => (⟨p.1, p.2, options.assetScale⟩ : AssetRequest) := by
    rw [List.map_flatMap]
    refine List.flatMap_congr fun c hc => ?_
    obtain ⟨m, hm⟩ := exists_markup_of_componentFiles (componentFiles_eq_ok h) c hc
    exact Component.assetRequests_eq_pictures options.assetScale hm (himages c hc)
  rw [assets_eq h, assetsOf, hrequests, flatMap_pictures_sourceFiles h]
  exact distinctBy_map (fun _ _ => Iff.rfl) _

/-- Only the list of pictures is at its path. -/
theorem mem_manifestFile_of_path {f : SourceFile} (hf : f ∈ project.files)
    (hpath : f.path = manifestPath) : f ∈ manifestFile project.assets := by
  have hlast : lastPart f = some "manifest.json" := by
    rw [lastPart, hpath]
    decide +kernel
  rw [files_eq h, List.mem_append, List.mem_append] at hf
  rcases hf with (htoken | hsource) | hmanifest
  · have hname := (lastPart_tokenFiles options tokens).subset (List.mem_map_of_mem htoken)
    rw [hlast] at hname
    exact absurd hname (by decide)
  · have hname := List.mem_map_of_mem (f := lastPart) hsource
    rw [lastPart_sourceFiles h, hlast] at hname
    obtain ⟨stem, -, hstem⟩ := List.mem_map.mp hname
    have hends : ("manifest.json".toList).getLast? = some 'x' := by
      rw [← Option.some.inj hstem]
      exact getLast?_fileName stem
    exact absurd hends (by decide)
  · exact hmanifest

end Generated

/-- **The list of pictures and the source name the same pictures.** The pictures asked for are those
that the elements of the source show, the first one for each id, in order; and if there are any,
there is a file that lists them. -/
theorem generate_pictures {conversion : ConversionOptions} {classifier : Classifier}
    {nodes : List Node}
    (h : generate options (nodes.map (Node.convert conversion classifier)) tokens = .ok project) :
    (∀ f ∈ project.sourceFiles, (Source.read? f.content).isSome)
      ∧ project.assets = (firstOf (fun p q => p.1 = q.1)
        (project.sourceFiles.flatMap SourceFile.pictures)).map
          (fun p => ⟨p.1, p.2, options.assetScale⟩)
      ∧ ((∃ f ∈ project.files, f.path = manifestPath) ↔ project.assets ≠ [])
      ∧ ∀ f ∈ project.files, f.path = manifestPath →
        AssetRequest.listed? f.content = some project.assets := by
  have hread : ∀ f ∈ project.sourceFiles, (Source.read? f.content).isSome := by
    intro f hf
    have hmem := List.mem_map_of_mem (f := fun f => Source.read? f.content) hf
    rw [read?_sourceFiles h] at hmem
    obtain ⟨entry, -, hentry⟩ := List.mem_map.mp hmem
    exact Option.isSome_iff_exists.mpr ⟨_, hentry.symm⟩
  have himages : ∀ c ∈ nodes.map (Node.convert conversion classifier), c.PicturesAreImages :=
    List.forall_mem_map.mpr fun n _ => n.picturesAreImages_convert conversion classifier
  have hmanifest : ∀ f ∈ project.files, f.path = manifestPath →
      project.assets ≠ [] ∧ f = ⟨manifestPath, AssetRequest.manifest project.assets, .asset⟩ :=
    fun f hf hpath => mem_manifestFile.mp (mem_manifestFile_of_path h hf hpath)
  have hpresent : (∃ f ∈ project.files, f.path = manifestPath) ↔ project.assets ≠ [] := by
    refine ⟨fun ⟨f, hf, hpath⟩ => (hmanifest f hf hpath).1, fun hsome => ?_⟩
    have hfile : ⟨manifestPath, AssetRequest.manifest project.assets, .asset⟩ ∈ project.files := by
      rw [files_eq h]
      exact List.mem_append_right _ (mem_manifestFile.mpr ⟨hsome, rfl⟩)
    exact ⟨_, hfile, rfl⟩
  have hlisted : ∀ f ∈ project.files, f.path = manifestPath →
      AssetRequest.listed? f.content = some project.assets := by
    intro f hf hpath
    rw [(hmanifest f hf hpath).2]
    exact AssetRequest.listed?_manifest project.assets
  exact ⟨hread, assets_eq_shown h himages, hpresent, hlisted⟩

/-- Two cards. The second has a picture of the first once more, and one that is hidden. -/
theorem generate_pictures_cards :
    let picture (id ref : String) (visible : Option Bool) (inside : List Node) : Node := ⟨{
      id := id, name := "", kind := .rectangle, visible := visible
      fills := [{ kind := .image, imageRef := some ref }] }, inside⟩
    let note : Node := .leaf { id := "1:9", name := "", kind := .text }
    let card (inside : List Node) : Node := ⟨{ id := "1:1", name := "Card", kind := .frame }, inside⟩
    let components := [card [picture "1:2" "a" none [], picture "1:3" "b" none [note]],
      card [picture "1:2" "a" none [note], picture "1:4" "c" (some false) []]].map
        (Node.convert {} .standard)
    ∃ project, generate {} components none = .ok project
      ∧ project.sourceFiles.flatMap SourceFile.pictures = [("1:2", "a"), ("1:3", "b"), ("1:2", "a")]
      ∧ project.assets = [⟨"1:2", "a", 2⟩, ⟨"1:3", "b", 2⟩]
      ∧ ∃ f ∈ project.files, f.path = manifestPath
        ∧ AssetRequest.listed? f.content = some [⟨"1:2", "a", 2⟩, ⟨"1:3", "b", 2⟩] := by
  intro picture note card components
  have hleaves : ∀ c ∈ components, c.TextsAreLeaves := by
    unfold Component.TextsAreLeaves
    decide +kernel
  obtain ⟨project, hproject⟩ : ∃ project, generate {} components none = .ok project :=
    exists_generate (List.cons_ne_nil _ _) hleaves
  obtain ⟨-, hassets, hpresent, hlisted⟩ := generate_pictures hproject
  have hshown : components.flatMap (fun c => c.shown.pictures)
      = [("1:2", "a"), ("1:3", "b"), ("1:2", "a")] := by
    decide +kernel
  have hpictures := (flatMap_pictures_sourceFiles hproject).trans hshown
  rw [hpictures] at hassets
  have hfirst : project.assets = [⟨"1:2", "a", 2⟩, ⟨"1:3", "b", 2⟩] :=
    hassets.trans (by decide +kernel)
  obtain ⟨f, hf, hpath⟩ := hpresent.mpr (hfirst ▸ List.cons_ne_nil _ _)
  exact ⟨project, hproject, hpictures, hfirst, f, hf, hpath, hfirst ▸ hlisted f hf hpath⟩

end Project

end Handoff
