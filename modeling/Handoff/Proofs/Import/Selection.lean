import Handoff.Proofs.Import.Run

/-!
# An import delivers the selection

With a selection, an import looks for the ids one after the other. It stops at
the first that no node of the export has (`Selection.error?_nodes`), and else the
project has one source for each id, in order, that shows an element with that id.
The tokens are those of the whole export whatever is selected, so that the theme
is that of an import without a selection and of the tokens extracted alone, and the
token file differs from theirs in nothing but the time (`Import.run_selection`).
-/

namespace Handoff

/-- The ids of the nodes of an export. -/
def Export.ids (e : Export) : List String := e.roots.values.map (·.id)

/-- The tokens as if they had been extracted at the time given. -/
def TokenSet.asOf (t : TokenSet) (time : String) : TokenSet :=
  { t with provenance := t.provenance.map fun p => { p with extractedAt := time } }

/-- The theme and, if there is to be one, the token file of tokens as of the time given. -/
def TokenSet.filesAsOf (t : TokenSet) (options : GenerationOptions) (time : String) :
    List SourceFile :=
  ⟨Project.themePath, t.themeText, .theme⟩
    :: if options.tokenFile then [⟨Project.tokensPath, (t.asOf time).text, .theme⟩] else []

namespace Import

/-- What an import at some time delivers for a selection from the export whose text is given. -/
structure Delivers (request : ImportRequest) (settings : Settings) (time text : String)
    (project : Project) : Prop where
  /-- There is one source for each id, in order, and the element that it shows has the id. -/
  rootIds : project.sourceFiles.map SourceFile.rootId? = request.nodeIds.map some
  /-- The sources are all screens or all components. -/
  kinds : ∀ f ∈ project.sourceFiles,
    f.kind = if settings.generate.screens then .screen else .component
  /-- What carries the tokens is as without a selection and as for the tokens extracted alone,
  whenever and with whatever selection that is, but for the time. -/
  themes : ∀ other nodeIds, ∃ found whole,
    extractTokens { request with nodeIds := nodeIds } settings other (some text) = .ok found
      ∧ run { request with nodeIds := [] } settings other (some text) = .ok whole
      ∧ project.themeFiles = found.filesAsOf settings.generate time
      ∧ whole.themeFiles = found.filesAsOf settings.generate other

variable {request : ImportRequest} {settings : Settings} {text : String} {loaded : Export}

/-- The tokens of an import are those of any other, as of its time. -/
theorem tokenFiles_tokens (request : ImportRequest) (settings : Settings) (time other : String)
    (roots : Forest Layer) :
    Project.tokenFiles settings.generate (some (tokens request settings time roots))
      = (tokens request settings other roots).filesAsOf settings.generate time := rfl

/-- What carries the tokens does not depend on the selection. -/
theorem themeFiles_project {time : String} {roots : Forest Layer} {project : Project}
    (h : Import.project request settings time roots = .ok project) (other : String) :
    project.themeFiles
      = (tokens request settings other roots).filesAsOf settings.generate time := by
  obtain ⟨nodes, hselected⟩ := exists_selected h
  rw [themeFiles_eq hselected h]
  exact tokenFiles_tokens request settings time other roots

/-- A project that is imported with a selection is what there is to deliver. -/
theorem delivers_of_run (hload : Export.load text = .ok loaded)
    (hleaves : ∀ n ∈ loaded.roots, Node.TextsAreLeaves n) (hsome : request.nodeIds ≠ [])
    {time : String} {project : Project}
    (h : run request settings time (some text) = .ok project) :
    Delivers request settings time text project := by
  rw [run_eq hload] at h
  obtain ⟨nodes, hselected⟩ := exists_selected h
  have hnodes : Selection.nodes request.documentId request.nodeIds loaded.roots = .ok nodes := by
    rwa [← selected_of_ne_nil hsome]
  constructor
  · rw [rootIds_sourceFiles hselected h, ← Selection.map_id_of_nodes hnodes, List.map_map]
    rfl
  · exact fun f hf => kind_of_mem_sourceFiles hselected h hf
  · intro other nodeIds
    have hnone : selected { request with nodeIds := [] } loaded.roots = _ := selected_of_nil rfl
    obtain ⟨whole, hwhole⟩ := exists_project hnone hleaves settings other
    exact ⟨_, whole, extractTokens_eq hload, (run_eq hload).trans hwhole,
      themeFiles_project h other, themeFiles_project hwhole other⟩

/-- **An import delivers the selection.** Where text layers have nothing inside, it fails for the
first id that no node of the export has, and delivers all ids if there is no such id. -/
theorem run_selection (hload : Export.load text = .ok loaded)
    (hleaves : ∀ n ∈ loaded.roots, Node.TextsAreLeaves n) (hsome : request.nodeIds ≠ [])
    (settings : Settings) (time : String) :
    (∀ id, request.nodeIds.find? (fun id => id ∉ loaded.ids) = some id →
      run request settings time (some text)
        = .error (.source (.nodeNotFound request.documentId id)))
      ∧ ((∀ id ∈ request.nodeIds, id ∈ loaded.ids) →
        ∃ project, run request settings time (some text) = .ok project
          ∧ Delivers request settings time text project) := by
  have hselected : selected request loaded.roots = _ := selected_of_ne_nil hsome
  have herror : error? (Selection.nodes request.documentId request.nodeIds loaded.roots)
      = (request.nodeIds.find? fun id => id ∉ loaded.ids).map (.nodeNotFound request.documentId) :=
    Selection.error?_nodes
  constructor
  · intro id hid
    rw [hid] at herror
    rw [run_eq hload, project_eq_error (hselected.trans (error?_eq_some_iff.mp herror))]
  · intro hall
    have hnone : request.nodeIds.find? (fun id => id ∉ loaded.ids) = none :=
      List.find?_eq_none.mpr fun id hid => by simpa using hall id hid
    rw [hnone] at herror
    obtain ⟨nodes, hnodes⟩ := error?_eq_none_iff.mp herror
    obtain ⟨project, hproject⟩ :=
      exists_project (hselected.trans hnodes) hleaves settings time
    have hrun := (run_eq hload).trans hproject
    exact ⟨project, hrun, delivers_of_run hload hleaves hsome hrun⟩

/-- A page with a frame in a frame: the inner one is selected before and after the outer one, and
ids that the page does not have. -/
theorem run_selection_of_page :
    let layer (id name kind : String) (inside : List Json) : Json :=
      .object [("id", .string id), ("name", .string name), ("type", .string kind),
        ("children", .array inside)]
    let v := layer "0:1" "Page 1" "CANVAS"
      [layer "1:1" "Home" "FRAME" [layer "1:2" "Card" "FRAME" [layer "1:3" "Title" "TEXT" []]]]
    let nested : ImportRequest := { documentId := "doc", nodeIds := ["1:2", "1:1", "1:2"] }
    let missing : ImportRequest := { documentId := "doc", nodeIds := ["1:1", "9:9", "8:8"] }
    ∃ loaded, Export.load v.pretty = .ok loaded
      ∧ run missing {} "now" (some v.pretty) = .error (.source (.nodeNotFound "doc" "9:9"))
      ∧ ∃ project, run nested {} "now" (some v.pretty) = .ok project
        ∧ project.sourceFiles.map SourceFile.rootId? = [some "1:2", some "1:1", some "1:2"] := by
  intro layer v nested missing
  have hplain : v.IsPlain := by simp [v, layer]
  let page : Node :=
    ⟨{ id := "0:1", name := "Page 1", kind := .canvas },
      [⟨{ id := "1:1", name := "Home", kind := .frame },
        [⟨{ id := "1:2", name := "Card", kind := .frame },
          [.leaf { id := "1:3", name := "Title", kind := .text }]⟩]⟩]⟩
  have hload : Export.load v.pretty = .ok (.ofNode page) :=
    Export.load_pretty hplain (by decide) rfl
  have hleaves : ∀ n ∈ (Export.ofNode page).roots, Node.TextsAreLeaves n := by
    unfold Node.TextsAreLeaves
    decide +kernel
  have hmissing : missing.nodeIds ≠ [] := by decide
  have hnested : nested.nodeIds ≠ [] := by decide
  obtain ⟨hfails, -⟩ := run_selection hload hleaves hmissing {} "now"
  obtain ⟨-, hdelivers⟩ := run_selection hload hleaves hnested {} "now"
  obtain ⟨project, hproject, hdelivered⟩ := hdelivers (by decide +kernel)
  exact ⟨_, hload, hfails "9:9" (by decide +kernel), project, hproject, hdelivered.rootIds⟩

end Import

end Handoff
