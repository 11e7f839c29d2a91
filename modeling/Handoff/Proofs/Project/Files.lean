import Handoff.Files
import Handoff.Proofs.Project.Name
import Handoff.Proofs.Project.Source
import Handoff.Proofs.Results

/-!
# The files of a project

Every component of a project has a file, in order, under a name of its own
(`Project.paths_sourceFiles`), and the source in it is read back as what the
component shows under that name (`Project.read?_sourceFiles`). The names have no
slash and no point in them, so that a file stands directly in the directory it is
meant for, and no two files of a project have the same name there, be it files of
components, of tokens or the list of pictures (`Project.generate_apart`).
-/

namespace Handoff

/-! ### Paths -/

/-- A name without a slash is the last part of the path that it stands at the end of. -/
theorem Path.parts_below (directory : String) {name : String} (h : '/' ∉ name.toList) :
    parts (directory ++ "/" ++ name) = parts directory ++ [name] := by
  have htext : (directory ++ "/" ++ name).toList = directory.toList ++ '/' :: name.toList := by
    simp
  rw [parts, htext, List.splitOn_append_cons_self, List.splitOn_eq_singleton h, List.map_append,
    List.map_singleton, String.ofList_toList, parts]

namespace Project

/-! ### Names in a project -/

/-- The names of the components, as they are given out one after the other. -/
def componentNames (components : List Component) : List String :=
  Name.assign [] (components.map fun c => Name.component c.value.name)

/-- The names of the files of screens without their endings. -/
def screenStems (components : List Component) : List String :=
  Name.assign [] (components.map fun c => Name.screen c.value.name)

@[simp] theorem length_componentNames (components : List Component) :
    (componentNames components).length = components.length := by
  simp [componentNames]

@[simp] theorem length_screenStems (components : List Component) :
    (screenStems components).length = components.length := by
  simp [screenStems]

theorem isPlainIdentifier_of_mem_componentNames {components : List Component} {name : String}
    (h : name ∈ componentNames components) : Name.IsPlainIdentifier name := by
  refine Name.forall_mem_assign (fun _ n hbase => hbase.numbered n) ?_ [] name h
  exact List.forall_mem_map.mpr fun c _ => Name.isPlainIdentifier_component c.value.name

theorem isPlainStem_of_mem_screenStems {components : List Component} {stem : String}
    (h : stem ∈ screenStems components) : Name.IsPlainStem stem := by
  refine Name.forall_mem_assign (fun _ n hbase => hbase.numbered n) ?_ [] stem h
  exact List.forall_mem_map.mpr fun c _ => Name.isPlainStem_screen c.value.name

/-- The directory of the files of components or of screens. -/
def directory (options : GenerationOptions) : String :=
  if options.screens then options.screensDir else options.componentsDir

/-- The names of the files of components or of screens without their endings. -/
def stems (options : GenerationOptions) (components : List Component) : List String :=
  if options.screens then screenStems components else componentNames components

theorem componentPaths_componentNames (options : GenerationOptions) (components : List Component) :
    componentPaths options components (componentNames components)
      = (stems options components).map fun stem =>
        directory options ++ "/" ++ stem ++ "." ++ extension options := rfl

@[simp] theorem length_stems (options : GenerationOptions) (components : List Component) :
    (stems options components).length = components.length := by
  rw [stems]
  split <;> simp

@[simp] theorem length_componentPaths (options : GenerationOptions) (components : List Component) :
    (componentPaths options components (componentNames components)).length = components.length := by
  rw [componentPaths_componentNames, List.length_map, length_stems]

theorem nodup_stems (options : GenerationOptions) (components : List Component) :
    (stems options components).Nodup := by
  rw [stems]
  split <;> exact Name.nodup_assign _ _

theorem isPlainStem_of_mem_stems {options : GenerationOptions} {components : List Component}
    {stem : String} (h : stem ∈ stems options components) : Name.IsPlainStem stem := by
  rw [stems] at h
  split at h
  · exact isPlainStem_of_mem_screenStems h
  · exact (isPlainIdentifier_of_mem_componentNames h).isPlainStem

/-! ### Files of components -/

section ComponentFiles

variable {options : GenerationOptions} {components : List Component} {files : List SourceFile}

/-- Each component with its name and the path of its file. -/
def entries (options : GenerationOptions) (components : List Component) :
    List (Component × String × String) :=
  components.zip ((componentNames components).zip
    (componentPaths options components (componentNames components)))

/-- The kind of the files of components. -/
def sourceKind (options : GenerationOptions) : FileKind :=
  if options.screens then .screen else .component

/-- The file of a component, given its name and path. -/
def entryFile (options : GenerationOptions) (entry : Component × String × String) :
    Except TextWithChildren SourceFile :=
  (entry.1.fileSource options entry.2.1).map fun content =>
    ⟨entry.2.2, content, sourceKind options⟩

theorem componentFiles_eq_mapM :
    componentFiles options components = (entries options components).mapM (entryFile options) := rfl

theorem map_path_entries : (entries options components).map (fun entry => entry.2.2)
    = componentPaths options components (componentNames components) := by
  have hmap : (fun entry : Component × String × String => entry.2.2) = Prod.snd ∘ Prod.snd := rfl
  rw [hmap, ← List.map_map, entries, List.map_snd_zip (by simp), List.map_snd_zip (by simp)]

theorem map_name_entries : (entries options components).map (fun entry => (entry.1, entry.2.1))
    = components.zip (componentNames components) := by
  have hnames : ((componentNames components).zip
      (componentPaths options components (componentNames components))).map Prod.fst
        = componentNames components :=
    List.map_fst_zip (by simp)
  conv_rhs => rw [← hnames, List.zip_map_right]
  rfl

theorem map_component_entries : (entries options components).map Prod.fst = components :=
  List.map_fst_zip (by simp)

theorem entryFile_eq_ok_iff {entry : Component × String × String} {file : SourceFile} :
    entryFile options entry = .ok file ↔ file.path = entry.2.2 ∧ file.kind = sourceKind options
      ∧ entry.1.fileSource options entry.2.1 = .ok file.content := by
  obtain ⟨path, content, kind⟩ := file
  rw [entryFile]
  cases entry.1.fileSource options entry.2.1 with
  | error e => simp [Except.map]
  | ok text => simp [Except.map, eq_comm, and_comm]

theorem isIdentifier_of_mem_entries {entry : Component × String × String}
    (h : entry ∈ entries options components) : Script.isIdentifier entry.2.1 = true := by
  have hmem := List.mem_map_of_mem (f := fun entry => (entry.1, entry.2.1)) h
  rw [map_name_entries] at hmem
  exact (isPlainIdentifier_of_mem_componentNames (List.of_mem_zip hmem).2).isIdentifier

variable (h : componentFiles options components = .ok files)

include h

theorem paths_componentFiles :
    files.map (·.path) = componentPaths options components (componentNames components) := by
  rw [componentFiles_eq_mapM] at h
  rw [← map_path_entries]
  exact map_eq_map_of_mapM_eq_ok h fun entry _ file hfile => (entryFile_eq_ok_iff.mp hfile).1

theorem kind_of_mem_componentFiles : ∀ f ∈ files, f.kind = sourceKind options := by
  rw [componentFiles_eq_mapM] at h
  have hkinds := map_eq_map_of_mapM_eq_ok (k := fun _ => sourceKind options) h
    fun entry _ file hfile => (entryFile_eq_ok_iff.mp hfile).2.1
  intro f hf
  have hmem := List.mem_map_of_mem (f := fun f => f.kind) hf
  rw [hkinds] at hmem
  obtain ⟨_, _, hkind⟩ := List.mem_map.mp hmem
  exact hkind.symm

/-- Every component has a markup where all have files. -/
theorem exists_markup_of_componentFiles : ∀ c ∈ components, ∃ m, c.markup = .ok m := by
  rw [componentFiles_eq_mapM] at h
  intro c hc
  obtain ⟨entry, hentry, rfl⟩ : ∃ entry ∈ entries options components, entry.1 = c := by
    rwa [← List.mem_map, map_component_entries]
  obtain ⟨file, hfile⟩ := exists_mapM_eq_ok_iff.mp ⟨files, h⟩ entry hentry
  exact Component.exists_markup_of_fileSource (entryFile_eq_ok_iff.mp hfile).2.2

theorem read?_componentFiles :
    files.map (fun f => Source.read? f.content)
      = (components.zip (componentNames components)).map fun entry => some (entry.1.said entry.2) := by
  rw [componentFiles_eq_mapM] at h
  rw [← map_name_entries, List.map_map]
  refine map_eq_map_of_mapM_eq_ok h fun entry hentry file hfile => ?_
  exact Component.read?_fileSource (isIdentifier_of_mem_entries hentry)
    (entryFile_eq_ok_iff.mp hfile).2.2

end ComponentFiles

/-! ### Projects -/

/-- The files of components and of screens. -/
def sourceFiles (project : Project) : List SourceFile :=
  project.files.filter fun f => f.kind = .component ∨ f.kind = .screen

/-- The files that carry the tokens. -/
def themeFiles (project : Project) : List SourceFile :=
  project.files.filter fun f => f.kind = .theme

variable {options : GenerationOptions} {components : List Component} {tokens : Option TokenSet}
  {project : Project}

theorem nothing_iff : (components.isEmpty && tokens.isNone) = true
    ↔ ¬(components ≠ [] ∨ tokens ≠ none) := by
  simp

/-- What a project is made of. -/
theorem generate_eq_ok_iff : generate options components tokens = .ok project
    ↔ (components ≠ [] ∨ tokens ≠ none) ∧ ∃ files, componentFiles options components = .ok files ∧
      project = ⟨tokenFiles options tokens ++ files ++ manifestFile (assetsOf options components),
        assetsOf options components⟩ := by
  rw [generate]
  split
  · next h => simp [nothing_iff.mp h]
  · next h =>
    rw [nothing_iff, not_not] at h
    cases componentFiles options components with
    | error e => simp
    | ok files => simp [h, eq_comm]

/-- Components have files when each has a markup. -/
theorem exists_componentFiles_iff (options : GenerationOptions) (components : List Component) :
    (∃ files, componentFiles options components = .ok files)
      ↔ ∀ c ∈ components, ∃ m, c.markup = .ok m := by
  refine ⟨fun ⟨_, hfiles⟩ => exists_markup_of_componentFiles hfiles, fun h => ?_⟩
  refine exists_mapM_eq_ok_iff.mpr fun entry hentry => ?_
  obtain ⟨content, hcontent⟩ := (Component.exists_fileSource_iff options entry.2.1 entry.1).mpr
    (h entry.1 (List.of_mem_zip hentry).1)
  exact ⟨⟨entry.2.2, content, _⟩, entryFile_eq_ok_iff.mpr ⟨rfl, rfl, hcontent⟩⟩

/-- Components that have a source have files. -/
theorem exists_componentFiles (options : GenerationOptions)
    (h : ∀ c ∈ components, c.TextsAreLeaves) :
    ∃ files, componentFiles options components = .ok files := by
  refine (exists_componentFiles_iff options components).mpr fun c hc => ?_
  obtain ⟨m, hm, -⟩ := Component.hasMarkup c (h c hc)
  exact ⟨m, hm⟩

/-- There is a project for components that have a source, and for tokens. -/
theorem exists_project (hsome : components ≠ [] ∨ tokens ≠ none)
    (h : ∀ c ∈ components, c.TextsAreLeaves) :
    ∃ project, generate options components tokens = .ok project := by
  obtain ⟨files, hfiles⟩ := exists_componentFiles options h
  exact ⟨_, generate_eq_ok_iff.mpr ⟨hsome, files, hfiles, rfl⟩⟩

/-- There is a project for components that have a source. -/
theorem exists_generate (hsome : components ≠ []) (h : ∀ c ∈ components, c.TextsAreLeaves) :
    ∃ project, generate options components tokens = .ok project :=
  exists_project (.inl hsome) h

/-- Where components have no files, there is no project. -/
theorem generate_eq_error (hsome : components ≠ [] ∨ tokens ≠ none) {e : TextWithChildren}
    (h : componentFiles options components = .error e) :
    generate options components tokens = .error (.textWithChildren e.id) := by
  rw [generate, if_neg (mt nothing_iff.mp (not_not.mpr hsome)), h]

theorem kind_of_mem_tokenFiles {f : SourceFile} (h : f ∈ tokenFiles options tokens) :
    f.kind = .theme := by
  cases tokens with
  | none => cases h
  | some tokens =>
    rw [tokenFiles, List.mem_cons] at h
    rcases h with rfl | h
    · rfl
    · split at h
      · rw [List.mem_singleton.mp h]
      · cases h

/-- The list of pictures is there if there are any. -/
theorem mem_manifestFile {assets : List AssetRequest} {f : SourceFile} : f ∈ manifestFile assets
    ↔ assets ≠ [] ∧ f = ⟨manifestPath, AssetRequest.manifest assets, .asset⟩ := by
  rw [manifestFile]
  split
  · next hnone => simp [List.isEmpty_iff.mp hnone]
  · next hsome =>
    have hne : assets ≠ [] := by simpa using hsome
    simp [hne]

theorem kind_of_mem_manifestFile {assets : List AssetRequest} {f : SourceFile}
    (h : f ∈ manifestFile assets) : f.kind = .asset := by
  rw [(mem_manifestFile.mp h).2]

section Generated

variable (h : generate options components tokens = .ok project)

include h

theorem assets_eq : project.assets = assetsOf options components := by
  obtain ⟨_, files, _, rfl⟩ := generate_eq_ok_iff.mp h
  rfl

theorem componentFiles_eq_ok : componentFiles options components = .ok project.sourceFiles := by
  obtain ⟨_, files, hfiles, rfl⟩ := generate_eq_ok_iff.mp h
  have htokens : (tokenFiles options tokens).filter (fun f => f.kind = .component ∨ f.kind = .screen)
      = [] :=
    List.filter_eq_nil_iff.mpr fun f hf => by simp [kind_of_mem_tokenFiles hf]
  have hmanifest : ∀ assets, (manifestFile assets).filter
      (fun f => f.kind = .component ∨ f.kind = .screen) = [] :=
    fun assets => List.filter_eq_nil_iff.mpr fun f hf => by simp [kind_of_mem_manifestFile hf]
  have hsource : files.filter (fun f => f.kind = .component ∨ f.kind = .screen) = files := by
    refine List.filter_eq_self.mpr fun f hf => ?_
    rw [kind_of_mem_componentFiles hfiles f hf, sourceKind]
    split <;> rfl
  rw [hfiles, sourceFiles, List.filter_append, List.filter_append, htokens, hsource, hmanifest,
    List.nil_append, List.append_nil]

theorem files_eq : project.files
    = tokenFiles options tokens ++ project.sourceFiles ++ manifestFile project.assets := by
  have hsource := componentFiles_eq_ok h
  obtain ⟨_, files, hfiles, rfl⟩ := generate_eq_ok_iff.mp h
  rw [← Except.ok.inj (hfiles.symm.trans hsource)]

theorem themeFiles_eq : project.themeFiles = tokenFiles options tokens := by
  have htokens : (tokenFiles options tokens).filter (fun f => f.kind = .theme)
      = tokenFiles options tokens :=
    List.filter_eq_self.mpr fun f hf => decide_eq_true (kind_of_mem_tokenFiles hf)
  have hsource : project.sourceFiles.filter (fun f => f.kind = .theme) = [] := by
    refine List.filter_eq_nil_iff.mpr fun f hf => ?_
    rw [kind_of_mem_componentFiles (componentFiles_eq_ok h) f hf, sourceKind]
    split <;> simp
  have hmanifest : (manifestFile project.assets).filter (fun f => f.kind = .theme) = [] :=
    List.filter_eq_nil_iff.mpr fun f hf => by simp [kind_of_mem_manifestFile hf]
  rw [themeFiles, files_eq h, List.filter_append, List.filter_append, htokens, hsource, hmanifest,
    List.append_nil, List.append_nil]

/-- Every component has a file, in order, directly in the directory of such files. -/
theorem paths_sourceFiles : project.sourceFiles.map (·.path)
    = (stems options components).map fun stem =>
      directory options ++ "/" ++ stem ++ "." ++ extension options :=
  paths_componentFiles (componentFiles_eq_ok h)

/-- The source of every component is read back under the name that it got. -/
theorem read?_sourceFiles : project.sourceFiles.map (fun f => Source.read? f.content)
    = (components.zip (componentNames components)).map fun entry => some (entry.1.said entry.2) :=
  read?_componentFiles (componentFiles_eq_ok h)

/-- The names that are exported are those of the components. -/
theorem exported_sourceFiles :
    project.sourceFiles.map (fun f => (Source.read? f.content).map (·.exported))
      = (componentNames components).map some := by
  have hread := congrArg (List.map (Option.map Source.exported)) (read?_sourceFiles h)
  have hnames : (components.zip (componentNames components)).map Prod.snd
      = componentNames components :=
    List.map_snd_zip (by simp)
  rw [List.map_map, List.map_map] at hread
  rw [← hnames, List.map_map]
  exact hread

end Generated

/-- The sources of a project, or the error, are those of the components. -/
theorem map_sourceFiles_generate (options : GenerationOptions)
    (hsome : components ≠ [] ∨ tokens ≠ none) :
    (generate options components tokens).map sourceFiles
      = (componentFiles options components).mapError fun e => .textWithChildren e.id := by
  cases hfiles : componentFiles options components with
  | error e => rw [generate_eq_error hsome hfiles]; rfl
  | ok files =>
    have hproject := generate_eq_ok_iff.mpr ⟨hsome, files, hfiles, rfl⟩
    have hsource := componentFiles_eq_ok hproject
    rw [hproject, Except.map, ← Except.ok.inj (hfiles.symm.trans hsource)]
    rfl

/-! ### Files apart from each other -/

/-- The last part of the path of a file. -/
def lastPart (f : SourceFile) : Option String := (Path.parts f.path).getLast?

/-- The name of a file of a component, given its stem. -/
def fileName (options : GenerationOptions) (stem : String) : String :=
  stem ++ "." ++ extension options

theorem fileName_injective : Function.Injective (fileName options) := by
  intro s t h
  rw [fileName, fileName, String.append_left_inj, String.append_left_inj] at h
  exact h

/-- The names of the files of components end in the same letter. -/
theorem getLast?_fileName (stem : String) : (fileName options stem).toList.getLast? = some 'x' := by
  rw [fileName, extension]
  split <;> simp

theorem parts_path_of_stem {stem : String} (h : Name.IsPlainStem stem) :
    Path.parts (directory options ++ "/" ++ stem ++ "." ++ extension options)
      = Path.parts (directory options) ++ [fileName options stem] := by
  have hending : '/' ∉ ("." ++ extension options).toList := by
    rw [extension]
    split <;> decide
  have hslash : '/' ∉ (fileName options stem).toList := by
    rw [fileName, String.append_assoc, String.toList_append, List.mem_append, not_or]
    exact ⟨fun hc => (h.plain hc).1 rfl, hending⟩
  have hpath : directory options ++ "/" ++ stem ++ "." ++ extension options
      = directory options ++ "/" ++ fileName options stem := by
    simp only [fileName, String.append_assoc]
  rw [hpath, Path.parts_below _ hslash]

theorem lastPart_tokenFiles (options : GenerationOptions) (tokens : Option TokenSet) :
    ((tokenFiles options tokens).map lastPart).Sublist
      [some "tailwind.config.js", some "design-tokens.json"] := by
  have htheme : (Path.parts themePath).getLast? = some "tailwind.config.js" := by decide +kernel
  have htokens : (Path.parts tokensPath).getLast? = some "design-tokens.json" := by decide +kernel
  cases tokens with
  | none => exact List.nil_sublist _
  | some tokens =>
    rw [tokenFiles]
    split <;> simp [lastPart, htheme, htokens]

theorem lastPart_manifestFile (assets : List AssetRequest) :
    ((manifestFile assets).map lastPart).Sublist [some "manifest.json"] := by
  have hmanifest : (Path.parts manifestPath).getLast? = some "manifest.json" := by decide +kernel
  rw [manifestFile]
  split <;> simp [lastPart, hmanifest]

/-- The files of components are called by their stems. -/
theorem lastPart_sourceFiles (h : generate options components tokens = .ok project) :
    project.sourceFiles.map lastPart
      = (stems options components).map fun stem => some (fileName options stem) := by
  have hlast : project.sourceFiles.map lastPart
      = (project.sourceFiles.map (·.path)).map fun path => (Path.parts path).getLast? := by
    rw [List.map_map]
    rfl
  rw [hlast, paths_sourceFiles h, List.map_map]
  refine List.map_congr_left fun stem hstem => ?_
  rw [Function.comp_apply, parts_path_of_stem (isPlainStem_of_mem_stems hstem),
    List.getLast?_concat]

/-- The files of components stand directly in their directory. -/
theorem dropLast_parts_sourceFiles (h : generate options components tokens = .ok project) :
    ∀ f ∈ project.sourceFiles, (Path.parts f.path).dropLast = Path.parts (directory options) := by
  intro f hf
  have hpath := List.mem_map_of_mem (f := (·.path)) hf
  rw [paths_sourceFiles h] at hpath
  obtain ⟨stem, hstem, hpath⟩ := List.mem_map.mp hpath
  rw [← hpath, parts_path_of_stem (isPlainStem_of_mem_stems hstem), List.dropLast_concat]

/-- No two files have the same name, wherever they are. -/
theorem nodup_lastPart (h : generate options components tokens = .ok project) :
    (project.files.map lastPart).Nodup := by
  have hfixed := (lastPart_tokenFiles options tokens).append (lastPart_manifestFile project.assets)
  have hperm : (project.files.map lastPart).Perm (project.sourceFiles.map lastPart
      ++ ((tokenFiles options tokens).map lastPart
        ++ (manifestFile project.assets).map lastPart)) := by
    rw [files_eq h, List.map_append, List.map_append, ← List.append_assoc]
    exact List.perm_append_comm.append_right _
  have hsources : (project.sourceFiles.map lastPart).Nodup := by
    rw [lastPart_sourceFiles h]
    exact (nodup_stems options components).map
      ((Option.some_injective _).comp fileName_injective)
  rw [hperm.nodup_iff, List.nodup_append']
  refine ⟨hsources, hfixed.nodup (by decide), fun name hsource hother => ?_⟩
  -- The names of source files end in a letter that no other name ends in.
  rw [lastPart_sourceFiles h] at hsource
  obtain ⟨stem, _, rfl⟩ := List.mem_map.mp hsource
  have hends : ∀ other ∈ [some "tailwind.config.js", some "design-tokens.json",
      some "manifest.json"], other.map (·.toList.getLast?) ≠ some (some 'x') := by
    decide
  exact hends _ (hfixed.subset hother) (congrArg some (getLast?_fileName stem))

/-- **No file overwrites another.** No two files of a project have the same path or even the same
name. The file of a component stands directly in the directory given, its name is made of a stem
that no other has, and the component in it is exported under a name that no other has. Stems and
names have neither slashes nor points, and only ASCII characters. -/
theorem generate_apart (h : generate options components tokens = .ok project) :
    (project.files.map (·.path)).Nodup
      ∧ (project.files.map lastPart).Nodup
      ∧ project.sourceFiles.map (·.path) = (if options.screens
          then (screenStems components).map fun stem =>
            options.screensDir ++ "/" ++ stem ++ "." ++ extension options
          else (componentNames components).map fun name =>
            options.componentsDir ++ "/" ++ name ++ "." ++ extension options)
      ∧ project.sourceFiles.map (fun f => (Source.read? f.content).map (·.exported))
        = (componentNames components).map some
      ∧ (∀ f ∈ project.sourceFiles, (Path.parts f.path).dropLast = Path.parts (directory options))
      ∧ ((componentNames components).length = components.length ∧ (componentNames components).Nodup)
      ∧ ((screenStems components).length = components.length ∧ (screenStems components).Nodup)
      ∧ ∀ name ∈ componentNames components ++ screenStems components,
        ∀ c ∈ name.toList, c ≠ '/' ∧ c ≠ '.' ∧ c.toNat < 128 := by
  have hlast := nodup_lastPart h
  have hpaths : (project.files.map (·.path)).Nodup := by
    refine .of_map (fun path => (Path.parts path).getLast?) ?_
    rwa [List.map_map]
  have hplaces : project.sourceFiles.map (·.path) = if options.screens
      then (screenStems components).map fun stem =>
        options.screensDir ++ "/" ++ stem ++ "." ++ extension options
      else (componentNames components).map fun name =>
        options.componentsDir ++ "/" ++ name ++ "." ++ extension options := by
    rw [paths_sourceFiles h, stems, directory]
    split <;> rfl
  have hplain : ∀ name ∈ componentNames components ++ screenStems components,
      ∀ c ∈ name.toList, c ≠ '/' ∧ c ≠ '.' ∧ c.toNat < 128 := by
    refine List.forall_mem_append.mpr ⟨fun name hname c hc => ?_, fun stem hstem c hc => ?_⟩
    · exact (isPlainIdentifier_of_mem_componentNames hname).isPlainStem.plain hc
    · exact (isPlainStem_of_mem_screenStems hstem).plain hc
  exact ⟨hpaths, hlast, hplaces, exported_sourceFiles h, dropLast_parts_sourceFiles h,
    ⟨length_componentNames components, Name.nodup_assign _ _⟩,
    ⟨length_screenStems components, Name.nodup_assign _ _⟩, hplain⟩

/-- The name that the second of two cards gets is asked for by a third. -/
theorem generate_apart_cards :
    let cards : List Component := ["Card", "card", "Card 2"].map fun name =>
      .leaf { id := "1:1", name := name, kind := .frame }
    ∃ project, generate {} cards none = .ok project
      ∧ (project.files.map (·.path)).Nodup
      ∧ project.sourceFiles.map (·.path)
        = ["components/Card.tsx", "components/Card2.tsx", "components/Card22.tsx"]
      ∧ project.sourceFiles.map (fun f => (Source.read? f.content).map (·.exported))
        = [some "Card", some "Card2", some "Card22"] := by
  intro cards
  have hleaves : ∀ c ∈ cards, c.TextsAreLeaves := by
    simp [cards, Component.textsAreLeaves_leaf]
  have hnames : componentNames cards = ["Card", "Card2", "Card22"] := by decide +kernel
  obtain ⟨project, hproject⟩ : ∃ project, generate {} cards none = .ok project :=
    exists_generate (List.cons_ne_nil _ _) hleaves
  obtain ⟨hpaths, -, hplaces, hexported, -⟩ := generate_apart hproject
  rw [hnames] at hplaces hexported
  exact ⟨project, hproject, hpaths, hplaces, hexported⟩

end Project

end Handoff
