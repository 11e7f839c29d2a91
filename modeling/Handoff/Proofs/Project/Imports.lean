import Handoff.Proofs.Project.Files

/-!
# Names that a file imports and the name that it exports

The source of a component imports every name once. The name that it exports is
made of the name of a layer, and nothing keeps it apart from the names that are
imported: a file exports one of these exactly when its layer is called like one
of them and no layer before is (`Project.exported_mem_imported_iff`). A name with
a number is never imported, so only the first of several such layers is concerned.
-/

namespace Handoff

namespace Component

theorem mem_importedNames_iff (name : String) (c : Component) : name ∈ c.importedNames
    ↔ name = "React" ∨ ∃ visit ∈ c.walk, (Primitive.ofComponent visit.1).tag = name := by
  rw [importedNames, List.mem_cons, List.mem_map]
  refine or_congr_right ⟨?_, ?_⟩
  · rintro ⟨p, hp, rfl⟩
    obtain ⟨visit, hvisit, rfl⟩ := (mem_primitives_iff p c).mp hp
    exact ⟨visit, hvisit, rfl⟩
  · rintro ⟨visit, hvisit, rfl⟩
    exact ⟨_, (mem_primitives_iff _ c).mpr ⟨visit, hvisit, rfl⟩, rfl⟩

/-- No name is imported twice. -/
theorem nodup_importedNames (c : Component) : c.importedNames.Nodup := by
  have hprimitives : c.primitives.Nodup := List.Nodup.filter _ (by decide : Primitive.all.Nodup)
  refine List.nodup_cons.mpr ⟨fun hmem => ?_, hprimitives.map Primitive.tag_injective⟩
  obtain ⟨p, -, hp⟩ := List.mem_map.mp hmem
  cases p <;> exact absurd hp (by decide)

/-- No imported name ends in a digit. -/
theorem last_of_mem_importedNames {c : Component} {name : String} (h : name ∈ c.importedNames) :
    ∀ d ∈ name.toList.getLast?, d.isDigit = false := by
  have hall : ∀ name ∈ "React" :: Primitive.all.map Primitive.tag,
      name.toList.getLast?.all (fun d => !d.isDigit) = true := by
    decide
  have hname : name ∈ "React" :: Primitive.all.map Primitive.tag := by
    rcases List.mem_cons.mp h with rfl | h
    · exact List.mem_cons_self
    · obtain ⟨p, -, rfl⟩ := List.mem_map.mp h
      exact List.mem_cons_of_mem _ (List.mem_map_of_mem p.mem_all)
  intro d hd
  have hlast := hall name hname
  rw [Option.mem_def.mp hd] at hlast
  simpa using hlast

end Component

namespace Project

variable {options : GenerationOptions} {components : List Component} {tokens : Option TokenSet}
  {project : Project}

/-- The source of the component at a position is read back under the name at this position. -/
theorem exists_source (h : generate options components tokens = .ok project) {i : Nat} {c : Component}
    (hc : components[i]? = some c) :
    ∃ file name, project.sourceFiles[i]? = some file ∧ (componentNames components)[i]? = some name
      ∧ Source.read? file.content = some (c.said name) := by
  have hread := congrArg (·[i]?) (read?_sourceFiles h)
  obtain ⟨hi, -⟩ := List.getElem?_eq_some_iff.mp hc
  obtain ⟨name, hname⟩ : ∃ name, (componentNames components)[i]? = some name :=
    ⟨_, List.getElem?_eq_getElem (by simpa using hi)⟩
  have hentry : (components.zip (componentNames components))[i]? = some (c, name) :=
    List.getElem?_zip_eq_some.mpr ⟨hc, hname⟩
  simp only [List.getElem?_map, hentry, Option.map_some] at hread
  obtain ⟨file, hfile, hsource⟩ := Option.map_eq_some_iff.mp hread
  exact ⟨file, name, hfile, hname, hsource⟩

/-- **When a file exports a name that it imports**: its layer has this name, and no layer of a
component before has. Imported names are distinct. -/
theorem exported_mem_imported_iff (h : generate options components tokens = .ok project) {i : Nat}
    {c : Component} (hc : components[i]? = some c) :
    ∃ file source, project.sourceFiles[i]? = some file ∧ Source.read? file.content = some source
      ∧ source.imported.Nodup
      ∧ (source.exported ∈ source.imported ↔
        (Name.component c.value.name = "React" ∨ ∃ visit ∈ c.walk,
          (Primitive.ofComponent visit.1).tag = Name.component c.value.name)
        ∧ ∀ d ∈ components.take i, Name.component d.value.name ≠ Name.component c.value.name) := by
  obtain ⟨file, name, hfile, hname, hread⟩ := exists_source h hc
  refine ⟨file, c.said name, hfile, hread, c.nodup_importedNames, ?_⟩
  have hbase : (components.map fun c => Name.component c.value.name)[i]?
      = some (Name.component c.value.name) := by
    rw [List.getElem?_map, hc, Option.map_some]
  have hbefore : ∀ imported, imported ∉ (components.map fun c => Name.component c.value.name).take i
      ↔ ∀ d ∈ components.take i, Name.component d.value.name ≠ imported := by
    intro imported
    rw [← List.map_take, List.mem_map]
    simp
  -- An imported name has no number, so whoever gets it has asked for it, and is the first to do so.
  have hfirst : ∀ imported ∈ c.importedNames, name = imported ↔ Name.component c.value.name = imported
      ∧ ∀ d ∈ components.take i, Name.component d.value.name ≠ imported := by
    intro imported hmem
    rw [← hbefore, ← Option.some_inj (a := name), ← hname, ← Option.some_inj (a := Name.component _),
      ← hbase]
    exact Name.getElem?_assign_eq_some_iff (Component.last_of_mem_importedNames hmem) _ i
  rw [← Component.mem_importedNames_iff]
  change name ∈ c.importedNames ↔ _
  constructor
  · intro hmem
    obtain ⟨heq, hnone⟩ := (hfirst name hmem).mp rfl
    rw [heq]
    exact ⟨hmem, hnone⟩
  · rintro ⟨hmem, hnone⟩
    rwa [(hfirst _ hmem).mpr ⟨rfl, hnone⟩]

/-- The first of two layers called after a box exports the name of a box, which it imports. The
second does not. -/
theorem exported_mem_imported_views :
    let view : Component := .leaf { id := "1:1", name := "View", kind := .frame }
    ∃ project, generate {} [view, view] none = .ok project
      ∧ (∃ file source, project.sourceFiles[0]? = some file ∧ Source.read? file.content = some source
        ∧ source.exported ∈ source.imported)
      ∧ ∃ file source, project.sourceFiles[1]? = some file ∧ Source.read? file.content = some source
        ∧ source.exported ∉ source.imported := by
  intro view
  have hname : Name.component "View" = "View" := by decide +kernel
  have hleaves : ∀ c ∈ [view, view], c.TextsAreLeaves := by
    simp [view, Component.textsAreLeaves_leaf]
  obtain ⟨project, hproject⟩ : ∃ project, generate {} [view, view] none = .ok project :=
    exists_generate (List.cons_ne_nil _ _) hleaves
  obtain ⟨file, source, hfile, hread, -, hiff⟩ :=
    exported_mem_imported_iff hproject (i := 0) (c := view) rfl
  obtain ⟨file', source', hfile', hread', -, hiff'⟩ :=
    exported_mem_imported_iff hproject (i := 1) (c := view) rfl
  refine ⟨project, hproject, ⟨file, source, hfile, hread, hiff.mpr ⟨.inr ?_, by simp⟩⟩,
    file', source', hfile', hread', fun hmem => (hiff'.mp hmem).2 view List.mem_cons_self rfl⟩
  exact ⟨(view, 0), List.mem_cons_self, hname.symm⟩

/-- A file may export what it imports. -/
theorem not_exported_notMem_imported :
    ¬ ∀ (options : GenerationOptions) (components : List Component) (tokens : Option TokenSet)
      (project : Project), generate options components tokens = .ok project →
      ∀ file ∈ project.sourceFiles, ∀ source, Source.read? file.content = some source →
        source.exported ∉ source.imported := by
  intro hall
  let view : Component := .leaf { id := "1:1", name := "View", kind := .frame }
  have hleaves : ∀ c ∈ [view], c.TextsAreLeaves := by
    simp [view, Component.textsAreLeaves_leaf]
  obtain ⟨project, hproject⟩ : ∃ project, generate {} [view] none = .ok project :=
    exists_generate (List.cons_ne_nil _ _) hleaves
  obtain ⟨file, name, hfile, hname, hread⟩ := exists_source hproject (i := 0) (c := view) rfl
  have hview : componentNames [view] = ["View"] := by decide +kernel
  obtain rfl : "View" = name := by simpa [hview] using hname
  have hmem : "View" ∈ view.importedNames :=
    (Component.mem_importedNames_iff _ _).mpr (.inr ⟨(_, 0), List.mem_cons_self, rfl⟩)
  exact hall {} [view] none project hproject file (List.mem_of_getElem? hfile) _ hread hmem

end Project

end Handoff
