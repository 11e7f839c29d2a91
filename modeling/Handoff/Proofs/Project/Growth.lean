import Handoff.Proofs.Project.Pictures

/-!
# More components in a project

Components at the end of a project change nothing of the ones before them. Names,
files and pictures are given out one after the other, and what is given out
depends on what stands before it only: names by `Name.prefix_assign`, pictures by
`prefix_distinctBy`, files by `prefix_of_mapM_eq_ok`. Only the list of pictures,
which is one file for all of them, may be another one.
-/

namespace Handoff

theorem prefix_zip {α β : Type} {xs xs' : List α} {ys ys' : List β} (hxs : xs <+: xs')
    (hys : ys <+: ys') (hlength : xs.length = ys.length) : xs.zip ys <+: xs'.zip ys' := by
  obtain ⟨more, rfl⟩ := hxs
  obtain ⟨more', rfl⟩ := hys
  rw [List.zip_append hlength]
  exact List.prefix_append _ _

namespace Project

/-! ### Components -/

section Components

variable {options : GenerationOptions} {components more : List Component}
  (h : components <+: more)

include h

theorem prefix_componentNames : componentNames components <+: componentNames more :=
  Name.prefix_assign [] (h.map _)

theorem prefix_stems : stems options components <+: stems options more := by
  rw [stems, stems]
  split
  · exact Name.prefix_assign [] (h.map _)
  · exact prefix_componentNames h

theorem prefix_entries : entries options components <+: entries options more := by
  have hpaths : componentPaths options components (componentNames components)
      <+: componentPaths options more (componentNames more) := by
    rw [componentPaths_componentNames, componentPaths_componentNames]
    exact (prefix_stems h).map _
  exact prefix_zip h (prefix_zip (prefix_componentNames h) hpaths (by simp)) (by simp)

theorem prefix_assetsOf : assetsOf options components <+: assetsOf options more :=
  prefix_distinctBy _ (h.flatMap _)

end Components

/-! ### Projects -/

/-- The files of a project apart from the list of pictures. -/
def lastingFiles (project : Project) : List SourceFile :=
  project.files.filter fun f => f.path ≠ manifestPath

variable {options : GenerationOptions} {components : List Component} {tokens : Option TokenSet}
  {project : Project}

/-- Apart from the list of pictures there are the files that carry the tokens and those of the
components. -/
theorem lastingFiles_eq (h : generate options components tokens = .ok project) :
    project.lastingFiles = tokenFiles options tokens ++ project.sourceFiles := by
  have hkind : ∀ f ∈ tokenFiles options tokens ++ project.sourceFiles, f.kind ≠ .asset := by
    intro f hf
    rcases List.mem_append.mp hf with htoken | hsource
    · simp [kind_of_mem_tokenFiles htoken]
    · rw [kind_of_mem_componentFiles (componentFiles_eq_ok h) f hsource, sourceKind]
      split <;> simp
  have hkept : (tokenFiles options tokens ++ project.sourceFiles).filter
      (fun f => f.path ≠ manifestPath) = tokenFiles options tokens ++ project.sourceFiles := by
    refine List.filter_eq_self.mpr fun f hf => decide_eq_true fun hpath => hkind f hf ?_
    have hfile : f ∈ project.files := by
      rw [files_eq h]
      exact List.mem_append_left _ hf
    exact kind_of_mem_manifestFile (mem_manifestFile_of_path h hfile hpath)
  have hmanifest : (manifestFile project.assets).filter (fun f => f.path ≠ manifestPath) = [] := by
    refine List.filter_eq_nil_iff.mpr fun f hf => ?_
    simp [(mem_manifestFile.mp hf).2]
  rw [lastingFiles, files_eq h, List.filter_append, hkept, hmanifest, List.append_nil]

theorem length_sourceFiles (h : generate options components tokens = .ok project) :
    project.sourceFiles.length = components.length := by
  have hlength := congrArg List.length (paths_sourceFiles h)
  simpa using hlength

/-- There is a project for components that can be written. -/
theorem exists_generate_of_emit (options : GenerationOptions) (tokens : Option TokenSet)
    (hsome : components ≠ []) (hemit : ∀ c ∈ components, ∃ code, c.emit 0 = .ok code) :
    ∃ project, generate options components tokens = .ok project := by
  obtain ⟨files, hfiles⟩ := (exists_componentFiles_iff options components).mpr
    fun c hc => (c.exists_emit_iff 0).mp (hemit c hc)
  exact ⟨_, generate_eq_ok_iff.mpr ⟨.inl hsome, files, hfiles, rfl⟩⟩

/--
**More components leave what there was.** For components that can be written there is a project, and
one for the same components with more behind them. It begins with the files of the first, each with
its path and its content, apart from the list of pictures, and has one file more for each further
component. What it asks for begins with the pictures of the first.
-/
theorem generate_grows (options : GenerationOptions) (tokens : Option TokenSet)
    {components further : List Component} (hsome : components ≠ [])
    (hemit : ∀ c ∈ components ++ further, ∃ code, c.emit 0 = .ok code) :
    ∃ fewer more, generate options components tokens = .ok fewer
      ∧ generate options (components ++ further) tokens = .ok more
      ∧ fewer.lastingFiles <+: more.lastingFiles
      ∧ more.lastingFiles.length = fewer.lastingFiles.length + further.length
      ∧ fewer.assets <+: more.assets := by
  obtain ⟨fewer, hfewer⟩ := exists_generate_of_emit options tokens hsome
    fun c hc => hemit c (List.mem_append_left further hc)
  obtain ⟨more, hmore⟩ := exists_generate_of_emit options tokens
    (List.append_ne_nil_of_left_ne_nil hsome further) hemit
  have hprefix : components <+: components ++ further := List.prefix_append _ _
  have hsource : fewer.sourceFiles <+: more.sourceFiles :=
    prefix_of_mapM_eq_ok (prefix_entries hprefix) (componentFiles_eq_ok hfewer)
      (componentFiles_eq_ok hmore)
  refine ⟨fewer, more, hfewer, hmore, ?_, ?_, ?_⟩
  · rw [lastingFiles_eq hfewer, lastingFiles_eq hmore, List.prefix_append_right_inj]
    exact hsource
  · rw [lastingFiles_eq hfewer, lastingFiles_eq hmore, List.length_append, List.length_append,
      length_sourceFiles hfewer, length_sourceFiles hmore, List.length_append, Nat.add_assoc]
  · rw [assets_eq hfewer, assets_eq hmore]
    exact prefix_assetsOf hprefix

/-- A card with a picture, and behind it a card of that name with the picture and another one. -/
theorem generate_grows_cards :
    let picture (id ref : String) : Component :=
      .leaf { id := id, name := "", kind := .image, imageRef := some ref }
    let card (pictures : List Component) : Component :=
      ⟨{ id := "1:1", name := "Card", kind := .frame }, pictures⟩
    let first := card [picture "1:2" "a"]
    let second := card [picture "1:2" "a", picture "1:3" "b"]
    ∃ fewer more, Project.generate {} [first] none = .ok fewer
      ∧ Project.generate {} [first, second] none = .ok more
      ∧ fewer.lastingFiles <+: more.lastingFiles
      ∧ more.lastingFiles.length = fewer.lastingFiles.length + 1
      ∧ fewer.assets <+: more.assets := by
  intro picture card first second
  have hemit : ∀ c ∈ [first] ++ [second], ∃ code, c.emit 0 = .ok code := by
    have hleaves : ∀ c ∈ [first] ++ [second], c.TextsAreLeaves := by
      unfold Component.TextsAreLeaves
      decide +kernel
    intro c hc
    obtain ⟨m, hm, -⟩ := Component.hasMarkup c (hleaves c hc)
    exact (c.exists_emit_iff 0).mpr ⟨m, hm⟩
  exact generate_grows {} none (List.cons_ne_nil first []) hemit

end Project

end Handoff
