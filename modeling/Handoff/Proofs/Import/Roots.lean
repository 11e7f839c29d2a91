import Handoff.Proofs.Import.Run

/-!
# Documents as exports

A document can be exported as a file with the document in it or as its root alone.
From a file the components are the layers right inside the pages. From the root
alone they are the pages, since only the children of the root take its place and
not theirs (`Import.run_document`). So the two are imported alike if no child of
the root is a page, and where ids are unique only then.
-/

namespace Handoff

/-- A document is exported as its root alone and as a file with the document in it. -/
structure ExportedAs (document : Node) (alone file : String) : Prop where
  /-- The node is the root of a document. -/
  isDocument : document.value.kind = .document
  /-- What is written for the root is the one text, and within an object the other. -/
  written : ∃ v, Node.ofJson? v = some document ∧ Export.hasDocument v = false
    ∧ Json.read? alone = some v ∧ Json.read? file = some (.object [("document", v)])

namespace ExportedAs

variable {document : Node} {alone file : String} (h : ExportedAs document alone file)

include h

theorem load_alone : Export.load alone = .ok (.ofNode document) := by
  obtain ⟨v, hnode, hplain, halone, -⟩ := h.written
  rw [Export.load, halone, Option.bind_some, Export.ofJson?, hplain, if_neg Bool.false_ne_true, hnode]
  rfl

theorem load_file : Export.load file = .ok (.ofDocument { root := document }) := by
  obtain ⟨v, hnode, -, -, hfile⟩ := h.written
  have hdocument : Document.ofJson? (.object [("document", v)]) = some { root := document } := by
    simp [Document.ofJson?, Json.record?, Json.Fields.orDefault, Json.Fields.optional,
      Json.Fields.required, List.lookup_cons, hnode]
  have hwhole : Export.hasDocument (.object [("document", v)]) = true := rfl
  rw [Export.load, hfile, Option.bind_some, Export.ofJson?, if_pos hwhole, hdocument]
  rfl

end ExportedAs

namespace Import

/-- The layers right inside the pages among some nodes, and the nodes that are no pages. -/
def insidePages (nodes : List Node) : List Node :=
  nodes.flatMap fun n => if n.value.kind = .document ∨ n.value.kind = .canvas then n.children else [n]

theorem componentRoots_eq_insidePages (nodes : List Node) :
    componentRoots nodes = insidePages nodes := by
  refine List.flatMap_congr fun n _ => ?_
  simp [Layer.isContainer]

theorem insidePages_eq_self {nodes : List Node}
    (h : ∀ n ∈ nodes, n.value.kind ≠ .document ∧ n.value.kind ≠ .canvas) :
    insidePages nodes = nodes := by
  have hself : insidePages nodes = nodes.flatMap fun n => [n] :=
    List.flatMap_congr fun n hn => if_neg (not_or.mpr (h n hn))
  rw [hself, List.flatMap_singleton']

/-- Where ids are unique, the id of a page is none of those inside the pages. -/
theorem id_notMem_insidePages {document page : Node} (hids : (document.values.map (·.id)).Nodup)
    (hpage : page ∈ document.children)
    (hkind : page.value.kind = .document ∨ page.value.kind = .canvas) :
    page.value.id ∉ (insidePages document.children).map (·.value.id) := by
  intro hmem
  obtain ⟨n, hn, hid⟩ := List.mem_map.mp hmem
  rw [Tree.values_eq_map_walkFrom 0, List.map_map] at hids
  have hvisit : (page, 1) ∈ document.walkFrom 0 :=
    Tree.mem_walkFrom_of_mem_children hpage (Tree.self_mem_walkFrom 1 page)
  have hsame : ∀ depth, (n, depth) ∈ document.walkFrom 0 → (n, depth) = (page, 1) :=
    fun depth hmem => List.inj_on_of_nodup_map hids hmem hvisit hid
  obtain ⟨other, hother, hn⟩ := List.mem_flatMap.mp hn
  split at hn
  · -- Inside a page, the depth tells the node from the page.
    have hdepth := hsame 2 (Tree.mem_walkFrom_of_mem_children hother
      (Tree.mem_walkFrom_of_mem_children hn (Tree.self_mem_walkFrom 2 n)))
    cases hdepth
  · next hplain =>
    obtain rfl := List.mem_singleton.mp hn
    have hnode := hsame 1 (Tree.mem_walkFrom_of_mem_children hother (Tree.self_mem_walkFrom 1 n))
    obtain rfl := congrArg Prod.fst hnode
    exact hplain hkind

theorem textsAreLeaves_children {n : Node} (h : n.TextsAreLeaves) :
    ∀ m ∈ n.children, Node.TextsAreLeaves m :=
  fun _ hm => h.of_mem_subtrees (Tree.mem_subtrees_of_mem_children hm)

section Run

variable {document : Node} {alone file : String} (h : ExportedAs document alone file)
  {request : ImportRequest} (hnone : request.nodeIds = []) (settings : Settings) (time : String)

include hnone

theorem selected_alone (hkind : document.value.kind = .document) :
    selected request [document] = .ok document.children := by
  have hroots : insidePages [document] = document.children := by
    rw [insidePages, List.flatMap_singleton, if_pos (.inl hkind)]
  rw [selected_of_nil hnone, componentRoots_eq_insidePages, hroots]

theorem selected_file : selected request document.children = .ok (insidePages document.children) := by
  rw [selected_of_nil hnone, componentRoots_eq_insidePages]

include h

/-- From the root alone, the sources are those of its children. -/
theorem rootIds_run_alone {project : Project}
    (hrun : run request settings time (some alone) = .ok project) :
    project.sourceFiles.map SourceFile.rootId? = document.children.map fun n => some n.value.id := by
  rw [run_eq h.load_alone] at hrun
  exact rootIds_sourceFiles (selected_alone hnone h.isDocument) hrun

/-- From the file, the sources are those of the layers inside the pages. -/
theorem rootIds_run_file {project : Project}
    (hrun : run request settings time (some file) = .ok project) :
    project.sourceFiles.map SourceFile.rootId?
      = (insidePages document.children).map fun n => some n.value.id := by
  rw [run_eq h.load_file] at hrun
  exact rootIds_sourceFiles (selected_file hnone) hrun

theorem exists_run_alone (hleaves : document.TextsAreLeaves) :
    ∃ project, run request settings time (some alone) = .ok project := by
  have hroots : ∀ n ∈ [document], Node.TextsAreLeaves n := by simpa using hleaves
  rw [run_eq h.load_alone]
  exact exists_project (selected_alone hnone h.isDocument) hroots settings time

theorem exists_run_file (hleaves : document.TextsAreLeaves) :
    ∃ project, run request settings time (some file) = .ok project := by
  rw [run_eq h.load_file]
  exact exists_project (selected_file hnone) (textsAreLeaves_children hleaves) settings time

/-- Without pages right inside the root, the document is imported alike. -/
theorem map_sourceFiles_run_eq (hpages : ∀ n ∈ document.children,
      n.value.kind ≠ .document ∧ n.value.kind ≠ .canvas) :
    (run request settings time (some file)).map Project.sourceFiles
      = (run request settings time (some alone)).map Project.sourceFiles := by
  have hfile : selected request document.children = _ := selected_file hnone
  rw [insidePages_eq_self hpages] at hfile
  rw [run_eq h.load_file, run_eq h.load_alone]
  exact (map_sourceFiles_project hfile).trans
    (map_sourceFiles_project (selected_alone hnone h.isDocument)).symm

/-- With a page right inside the root, the document is not imported alike where ids are unique. -/
theorem map_sourceFiles_run_ne (hleaves : document.TextsAreLeaves)
    (hids : (document.values.map (·.id)).Nodup) {page : Node} (hpage : page ∈ document.children)
    (hkind : page.value.kind = .document ∨ page.value.kind = .canvas) :
    (run request settings time (some file)).map Project.sourceFiles
      ≠ (run request settings time (some alone)).map Project.sourceFiles := by
  obtain ⟨whole, hwhole⟩ := exists_run_file h hnone settings time hleaves
  obtain ⟨root, hroot⟩ := exists_run_alone h hnone settings time hleaves
  intro hsame
  rw [hwhole, hroot] at hsame
  have hsources : whole.sourceFiles = root.sourceFiles := Except.ok.inj hsame
  have hsameIds := rootIds_run_file h hnone settings time hwhole
  rw [hsources, rootIds_run_alone h hnone settings time hroot] at hsameIds
  have hmem : some page.value.id ∈ document.children.map fun n => some n.value.id :=
    List.mem_map_of_mem hpage
  rw [hsameIds] at hmem
  refine id_notMem_insidePages hids hpage hkind ?_
  simpa using hmem

end Run

/-- **A document is imported by its pages from its root alone**, and by what is inside them from a
file. So the sources are the same without pages right inside the root, and where text layers have
nothing inside and ids are unique they are the same only then. -/
theorem run_document {document : Node} {alone file : String} (h : ExportedAs document alone file)
    {request : ImportRequest} (hnone : request.nodeIds = []) (settings : Settings) (time : String) :
    let fromRoot := run request settings time (some alone)
    let fromFile := run request settings time (some file)
    let NoPages := ∀ n ∈ document.children, n.value.kind ≠ .document ∧ n.value.kind ≠ .canvas
    (∀ project, fromRoot = .ok project → project.sourceFiles.map SourceFile.rootId?
        = document.children.map fun n => some n.value.id)
      ∧ (∀ project, fromFile = .ok project → project.sourceFiles.map SourceFile.rootId?
        = (insidePages document.children).map fun n => some n.value.id)
      ∧ (NoPages → fromFile.map Project.sourceFiles = fromRoot.map Project.sourceFiles)
      ∧ (document.TextsAreLeaves →
        (∃ project, fromRoot = .ok project) ∧ (∃ project, fromFile = .ok project)
          ∧ ((document.values.map (·.id)).Nodup →
            fromFile.map Project.sourceFiles = fromRoot.map Project.sourceFiles → NoPages)) := by
  intro fromRoot fromFile NoPages
  refine ⟨fun _ hrun => rootIds_run_alone h hnone settings time hrun,
    fun _ hrun => rootIds_run_file h hnone settings time hrun,
    fun hpages => map_sourceFiles_run_eq h hnone settings time hpages, fun hleaves => ?_⟩
  refine ⟨exists_run_alone h hnone settings time hleaves,
    exists_run_file h hnone settings time hleaves, fun hids hsame n hn => ?_⟩
  refine not_or.mp fun hkind => ?_
  exact map_sourceFiles_run_ne h hnone settings time hleaves hids hn hkind hsame

/-! ### A page with two frames -/

/-- A document whose page has two frames, in JSON. -/
def twoFrames : Json :=
  let layer (id name kind : String) (inside : List Json) : Json :=
    .object [("id", .string id), ("name", .string name), ("type", .string kind),
      ("children", .array inside)]
  layer "0:0" "Document" "DOCUMENT" [layer "0:1" "Page 1" "CANVAS"
    [layer "1:1" "Home" "FRAME" [], layer "1:2" "Settings" "FRAME" []]]

/-- The file with `twoFrames` in it. -/
def twoFramesFile : Json := .object [("document", twoFrames)]

/-- The page of the document. -/
def twoFramesPage : Node :=
  ⟨{ id := "0:1", name := "Page 1", kind := .canvas },
    [.leaf { id := "1:1", name := "Home", kind := .frame },
      .leaf { id := "1:2", name := "Settings", kind := .frame }]⟩

/-- The root of the document. -/
def twoFramesRoot : Node := ⟨{ id := "0:0", name := "Document", kind := .document }, [twoFramesPage]⟩

theorem exportedAs_twoFrames :
    ExportedAs twoFramesRoot twoFrames.pretty twoFramesFile.pretty := by
  have halone : twoFrames.IsPlain := by simp [twoFrames]
  have hfile : twoFramesFile.IsPlain := by simp [twoFramesFile, halone]
  exact ⟨rfl, twoFrames, rfl, rfl, Json.read?_pretty halone (by decide),
    Json.read?_pretty hfile (by decide)⟩

theorem textsAreLeaves_twoFrames : twoFramesRoot.TextsAreLeaves := by
  unfold Node.TextsAreLeaves
  decide +kernel

theorem run_document_twoFrames :
    ∃ root whole, run {} {} "now" (some twoFrames.pretty) = .ok root
      ∧ run {} {} "now" (some twoFramesFile.pretty) = .ok whole
      ∧ root.sourceFiles.map SourceFile.rootId? = [some "0:1"]
      ∧ whole.sourceFiles.map SourceFile.rootId? = [some "1:1", some "1:2"] := by
  have hnone : ({} : ImportRequest).nodeIds = [] := rfl
  obtain ⟨hroot, hfile, -, hruns⟩ := run_document exportedAs_twoFrames hnone {} "now"
  obtain ⟨⟨root, hrun⟩, ⟨whole, hwhole⟩, -⟩ := hruns textsAreLeaves_twoFrames
  exact ⟨root, whole, hrun, hwhole, hroot root hrun, hfile whole hwhole⟩

/-- The document is not imported alike: from the root alone, the page becomes a component. -/
theorem not_same_twoFrames :
    ExportedAs twoFramesRoot twoFrames.pretty twoFramesFile.pretty
      ∧ (run {} {} "now" (some twoFramesFile.pretty)).map Project.sourceFiles
        ≠ (run {} {} "now" (some twoFrames.pretty)).map Project.sourceFiles
      ∧ ∀ project, run {} {} "now" (some twoFrames.pretty) = .ok project →
        project.sourceFiles.map SourceFile.rootId? = [some twoFramesPage.value.id] := by
  have hids : (twoFramesRoot.values.map (·.id)).Nodup := by decide +kernel
  have hpage : twoFramesPage ∈ twoFramesRoot.children := List.mem_cons_self
  exact ⟨exportedAs_twoFrames, map_sourceFiles_run_ne exportedAs_twoFrames rfl {} "now"
    textsAreLeaves_twoFrames hids hpage (.inr rfl),
    fun _ => rootIds_run_alone exportedAs_twoFrames rfl {} "now"⟩

end Import

end Handoff
