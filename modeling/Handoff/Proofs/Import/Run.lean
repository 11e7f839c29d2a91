import Handoff.Import.Run
import Handoff.Proofs.Component.Texts
import Handoff.Proofs.Json.Pretty

/-!
# What an import makes

An import whose export can be read selects nodes of it, and the project has a
source for each of them, in order, which shows an element with the id of the node
(`Import.rootIds_sourceFiles`). The sources depend on nothing but the nodes that
are selected (`Import.map_sourceFiles_project`), and the theme and the token file on
nothing but the tokens. Where text layers have nothing inside, there is a project.
-/

namespace Handoff

/-! ### The root of a source -/

/-- The id of an element. -/
def Element.id? : Element → Option String
  | .tagged _ attributes _ => match attributes.lookup "testID" with
    | some (.string id) => some id
    | _ => none
  | .text _ => none

/-- The id of the element that a file shows, if the file is a source. -/
def SourceFile.rootId? (f : SourceFile) : Option String :=
  (Source.read? f.content).bind fun source => source.shown.id?

theorem Component.id?_shown (c : Component) : c.shown.id? = some c.value.id := by
  obtain ⟨w, children⟩ := c
  rw [shown]
  split <;> simp [Element.id?, shownAttributes]

theorem Node.id_convert (conversion : ConversionOptions) (classifier : Classifier) (n : Node) :
    (n.convert conversion classifier).value.id = n.value.id := by
  obtain ⟨l, children⟩ := n
  exact Layer.id_widget conversion classifier l

/-- The sources of a project show the ids of its components. -/
theorem Project.rootIds_sourceFiles {options : GenerationOptions} {components : List Component}
    {tokens : Option TokenSet} {project : Project}
    (h : generate options components tokens = .ok project) :
    project.sourceFiles.map SourceFile.rootId? = components.map fun c => some c.value.id := by
  have hread := congrArg (List.map fun source => source.bind fun s : Source => s.shown.id?)
    (read?_sourceFiles h)
  have hcomponents : (components.zip (componentNames components)).map Prod.fst = components :=
    List.map_fst_zip (by simp)
  rw [List.map_map, List.map_map] at hread
  conv_rhs => rw [← hcomponents, List.map_map]
  refine hread.trans (List.map_congr_left fun entry _ => ?_)
  exact Component.id?_shown entry.1

/-! ### Exports as text -/

/-- An export is what its JSON says, written over several lines. -/
theorem Export.load_pretty_of_isRegular {v : Json} {loaded : Export} (hregular : v.IsRegular)
    (hdepth : v.depth ≤ Json.nestingLimit) (h : ofJson? v = some loaded) :
    load v.pretty = .ok loaded := by
  rw [load, Json.read?_pretty_of_isRegular hregular hdepth, Option.bind_some, h]

theorem Export.load_pretty {v : Json} {loaded : Export} (hplain : v.IsPlain)
    (hdepth : v.depth ≤ Json.nestingLimit) (h : ofJson? v = some loaded) :
    load v.pretty = .ok loaded :=
  load_pretty_of_isRegular hplain.isRegular hdepth h

/-! ### Looking for nodes -/

namespace Node

theorem findById?_eq (id : String) (roots : Forest Layer) :
    findById? id roots = roots.subtrees.find? fun n => n.value.id == id :=
  Forest.find?_eq _ roots

theorem findById?_eq_none_iff {id : String} {roots : Forest Layer} :
    findById? id roots = none ↔ id ∉ roots.values.map (·.id) := by
  rw [findById?_eq, Forest.values_eq_map_subtrees]
  simp

theorem of_findById?_eq_some {id : String} {roots : Forest Layer} {n : Node}
    (h : findById? id roots = some n) : n ∈ roots.subtrees ∧ n.value.id = id := by
  rw [findById?_eq] at h
  exact ⟨List.mem_of_find?_eq_some h, by simpa using List.find?_some h⟩

end Node

namespace Selection

variable {documentId id : String} {ids : List String} {roots : Forest Layer}

/-- The first node with the id, or the report that there is none. -/
def node (documentId : String) (roots : Forest Layer) (id : String) : Except ExportError Node :=
  match Node.findById? id roots with
  | some node => .ok node
  | none => .error (.nodeNotFound documentId id)

theorem nodes_eq_mapM : nodes documentId ids roots = ids.mapM (node documentId roots) := rfl

theorem node_eq_ok_iff {n : Node} : node documentId roots id = .ok n
    ↔ Node.findById? id roots = some n := by
  rw [node]
  cases Node.findById? id roots <;> simp

theorem error?_node : error? (node documentId roots id)
    = if id ∉ roots.values.map (·.id) then some (.nodeNotFound documentId id) else none := by
  simp only [← Node.findById?_eq_none_iff, node]
  cases Node.findById? id roots <;> simp [error?]

/-- What is reported is the first id that no node has. -/
theorem error?_nodes : error? (nodes documentId ids roots)
    = (ids.find? fun id => id ∉ roots.values.map (·.id)).map (.nodeNotFound documentId) := by
  rw [nodes_eq_mapM, error?_mapM, List.find?_eq_findSome?_guard, List.map_findSome?]
  refine findSome?_congr fun id _ => ?_
  rw [error?_node, Function.comp, Option.guard]
  split <;> simp_all

/-- The nodes that are found have the ids, in order. -/
theorem map_id_of_nodes {found : List Node} (h : nodes documentId ids roots = .ok found) :
    found.map (·.value.id) = ids := by
  have hids := map_eq_map_of_mapM_eq_ok (g := fun n : Node => n.value.id) (k := id) h
    fun _ _ _ hn => (Node.of_findById?_eq_some (node_eq_ok_iff.mp hn)).2
  rwa [List.map_id] at hids

/-- The nodes that are found are in the forest. -/
theorem mem_subtrees_of_nodes {found : List Node} (h : nodes documentId ids roots = .ok found) :
    ∀ n ∈ found, n ∈ roots.subtrees :=
  forall_mem_of_mapM_eq_ok h fun _ _ _ hn => (Node.of_findById?_eq_some (node_eq_ok_iff.mp hn)).1

end Selection

namespace Import

variable {request : ImportRequest} {settings : Settings} {time : String} {roots : Forest Layer}
  {nodes : List Node} {project : Project}

/-! ### From an export -/

section Export

variable {text : String} {loaded : Export} (h : Export.load text = .ok loaded)

include h

theorem extractTokens_eq : extractTokens request settings time (some text)
    = .ok (tokens request settings time loaded.roots) := by
  rw [extractTokens, Selection.fetchFrom, h]
  rfl

theorem run_eq : run request settings time (some text)
    = Import.project request settings time loaded.roots := by
  rw [run, Selection.fetchFrom, h]
  rfl

end Export

/-! ### Selected nodes -/

/-- Without a selection, the nodes are roots or right inside roots. -/
theorem mem_subtrees_of_mem_componentRoots {n : Node} (h : n ∈ componentRoots roots) :
    n ∈ roots.subtrees := by
  obtain ⟨root, hroot, hn⟩ := List.mem_flatMap.mp h
  refine List.mem_flatMap.mpr ⟨root, hroot, ?_⟩
  split at hn
  · exact Tree.mem_subtrees_of_mem_children hn
  · rw [List.mem_singleton.mp hn]
    exact Tree.self_mem_subtrees root

theorem selected_of_nil (h : request.nodeIds = []) :
    selected request roots = .ok (componentRoots roots) := by
  rw [selected, h]
  rfl

theorem selected_of_ne_nil (h : request.nodeIds ≠ []) :
    selected request roots = Selection.nodes request.documentId request.nodeIds roots := by
  rw [selected, if_neg (by simpa using h)]

/-- The nodes that are selected are in the export. -/
theorem mem_subtrees_of_selected (h : selected request roots = .ok nodes) :
    ∀ n ∈ nodes, n ∈ roots.subtrees := by
  by_cases hnil : request.nodeIds = []
  · rw [selected_of_nil hnil] at h
    obtain rfl := Except.ok.inj h
    exact fun n hn => mem_subtrees_of_mem_componentRoots hn
  · rw [selected_of_ne_nil hnil] at h
    exact Selection.mem_subtrees_of_nodes h

/-! ### From the roots -/

theorem project_eq_error {e : ExportError} (h : selected request roots = .error e) :
    Import.project request settings time roots = .error (.source e) := by
  rw [Import.project, h]
  rfl

/-- A project is that of selected nodes. -/
theorem exists_selected (h : Import.project request settings time roots = .ok project) :
    ∃ nodes, selected request roots = .ok nodes := by
  cases hselected : selected request roots with
  | ok nodes => exact ⟨nodes, rfl⟩
  | error e =>
    rw [project_eq_error hselected] at h
    cases h

variable (h : selected request roots = .ok nodes)

include h

theorem project_eq : Import.project request settings time roots
    = (Project.generate settings.generate (nodes.map (Node.convert settings.convert .standard))
      (some (tokens request settings time roots))).mapError .generation := by
  rw [Import.project, h]
  rfl

theorem project_eq_ok_iff : Import.project request settings time roots = .ok project
    ↔ Project.generate settings.generate (nodes.map (Node.convert settings.convert .standard))
      (some (tokens request settings time roots)) = .ok project := by
  rw [project_eq h, mapError_eq_ok_iff]

/-- There is a project where text layers have nothing inside. -/
theorem exists_project (hleaves : ∀ n ∈ roots, Node.TextsAreLeaves n) (settings : Settings)
    (time : String) : ∃ project, Import.project request settings time roots = .ok project := by
  simp only [project_eq_ok_iff h]
  refine Project.exists_project (.inr (by simp)) (List.forall_mem_map.mpr fun n hn => ?_)
  obtain ⟨root, hroot, hsub⟩ := List.mem_flatMap.mp (mem_subtrees_of_selected h n hn)
  exact ((hleaves root hroot).of_mem_subtrees hsub).convert settings.convert

/-- The sources, or the error, depend on nothing but the nodes that are selected. -/
theorem map_sourceFiles_project : (Import.project request settings time roots).map Project.sourceFiles
    = (Project.componentFiles settings.generate
      (nodes.map (Node.convert settings.convert .standard))).mapError
        fun e => .generation (.textWithChildren e.id) := by
  rw [project_eq h, map_mapError, Project.map_sourceFiles_generate _ (.inr (by simp)),
    mapError_mapError]
  rfl

variable (hproject : Import.project request settings time roots = .ok project)

include hproject

/-- There is a source for every node that is selected, and it shows the id of the node. -/
theorem rootIds_sourceFiles :
    project.sourceFiles.map SourceFile.rootId? = nodes.map fun n => some n.value.id := by
  rw [Project.rootIds_sourceFiles ((project_eq_ok_iff h).mp hproject), List.map_map]
  exact List.map_congr_left fun n _ => congrArg some (Node.id_convert _ _ n)

theorem kind_of_mem_sourceFiles {f : SourceFile} (hf : f ∈ project.sourceFiles) :
    f.kind = if settings.generate.screens then .screen else .component :=
  Project.kind_of_mem_componentFiles
    (Project.componentFiles_eq_ok ((project_eq_ok_iff h).mp hproject)) f hf

theorem themeFiles_eq : project.themeFiles
    = Project.tokenFiles settings.generate (some (tokens request settings time roots)) :=
  Project.themeFiles_eq ((project_eq_ok_iff h).mp hproject)

end Import

end Handoff
