import Handoff.Proofs.Import.Selection
import Handoff.Proofs.Visits

/-!
# What a selection fetches

A selection is fetched in two steps: the nodes are looked for, and what is found is
cut below the depth. The first step gives all roots or, for each id in order, the
first node with it on a walk of the export (`Selection.fetch_uncut_eq_ok_iff`), and
it fails for the first id that no node has (`Selection.error?_fetch_uncut`). On what
the second step leaves of a node, everything down to the depth is seen as before, and
this tells what is left (`Selection.isCut_iff`).

Without a depth, this is the selection of an import, which fetches everything first
and looks for the ids in it (`Selection.bind_selected`).
-/

namespace Handoff

namespace Node

/-- The node is the first with the id on a walk of the forest. -/
def IsFirst (roots : Forest Layer) (id : String) (n : Node) : Prop :=
  n.value.id = id ∧ ∃ before after depth, roots.walk = before ++ (n, depth) :: after
    ∧ ∀ visit ∈ before, visit.1.value.id ≠ id

theorem findById?_eq_some_iff {roots : Forest Layer} {id : String} {n : Node} :
    findById? id roots = some n ↔ IsFirst roots id n := by
  rw [findById?_eq, Forest.subtrees_eq_map_walk, List.find?_map, Option.map_eq_some_iff]
  simp only [List.find?_eq_some_iff_append, Prod.exists, IsFirst]
  constructor
  · rintro ⟨m, depth, ⟨hid, before, after, hwalk, hbefore⟩, rfl⟩
    exact ⟨by simpa using hid, before, after, depth, hwalk, by simpa using hbefore⟩
  · rintro ⟨hid, before, after, depth, hwalk, hbefore⟩
    exact ⟨n, depth, ⟨by simpa using hid, before, after, hwalk, by simpa using hbefore⟩, rfl⟩

end Node

namespace Selection

/-- What is looked for: all roots where there are no ids, and else the first node with each id, in
order. -/
def IsFound (s : Selection) (roots : Forest Layer) (whole : List Node) : Prop :=
  if s.nodeIds = [] then whole = roots else List.Forall₂ (Node.IsFirst roots) s.nodeIds whole

/-- On the tree, what is seen is what is seen on the node down to the depth, if one is given. -/
def IsCut (depth : Option Nat) (n t : Node) : Prop :=
  t.visits = n.visits.filter fun visit => depth.all (visit.2 ≤ ·)

/-- What is looked for, cut below the depth. -/
def IsFetched (s : Selection) (roots : Forest Layer) (found : List Node) : Prop :=
  ∃ whole, s.IsFound roots whole ∧ List.Forall₂ (IsCut s.depth) whole found

/-- The selection without its depth. -/
def uncut (s : Selection) : Selection := { s with depth := none }

/-- The request to import the selection, with the ids of the pages given. -/
def request (s : Selection) (documentId : String) (pageIds : List String) : ImportRequest :=
  { documentId, nodeIds := s.nodeIds, pageIds }

variable (s : Selection) (documentId : String) (roots : Forest Layer)

/-! ### Looking for the nodes -/

theorem fetch_uncut_eq : s.uncut.fetch documentId roots
    = if s.nodeIds = [] then .ok roots else nodes documentId s.nodeIds roots := by
  simp only [fetch, uncut, List.isEmpty_iff]

theorem fetch_uncut_eq_ok_iff (whole : List Node) :
    s.uncut.fetch documentId roots = .ok whole ↔ s.IsFound roots whole := by
  rw [fetch_uncut_eq, IsFound]
  split
  · exact ⟨fun h => (Except.ok.inj h).symm, fun h => congrArg Except.ok h.symm⟩
  · simp only [nodes_eq_mapM, mapM_eq_ok_iff_forall₂, node_eq_ok_iff, Node.findById?_eq_some_iff]

/-- What is reported is the first id that no node has. -/
theorem error?_fetch_uncut : error? (s.uncut.fetch documentId roots)
    = (s.nodeIds.find? fun id => id ∉ roots.values.map (·.id)).map (.nodeNotFound documentId) := by
  rw [fetch_uncut_eq]
  split
  · next hnil => rw [hnil]; rfl
  · exact error?_nodes

/-! ### Cutting below the depth -/

/-- The node down to the depth, if one is given. -/
def cutNode (depth : Option Nat) (n : Node) : Node :=
  match depth with
  | none => n
  | some d => n.truncate d

theorem isCut_iff (depth : Option Nat) (n t : Node) : IsCut depth n t ↔ cutNode depth n = t := by
  rw [eq_comm, ← Tree.visits_injective.eq_iff, IsCut]
  cases depth with
  | none => simp [cutNode]
  | some d => simp [cutNode, Tree.visits_truncate]

theorem forall₂_isCut_iff (depth : Option Nat) (whole found : List Node) :
    List.Forall₂ (IsCut depth) whole found ↔ whole.map (cutNode depth) = found := by
  have hcut : IsCut depth = fun n t => cutNode depth n = t := by
    ext n t
    exact isCut_iff depth n t
  rw [hcut, ← List.forall₂_map_left_iff, List.forall₂_eq_eq_eq]

theorem fetch_eq_map : s.fetch documentId roots
    = (s.uncut.fetch documentId roots).map fun whole => whole.map (cutNode s.depth) := by
  obtain ⟨nodeIds, depth⟩ := s
  cases depth with
  | none =>
    have hcut : (fun whole : List Node => whole.map (cutNode none)) = id := funext List.map_id'
    rw [hcut, Except.map_id]
    rfl
  | some d => rfl

/-! ### What is fetched -/

/-- What is fetched is what is looked for, cut below the depth. -/
theorem fetch_eq_ok_iff (found : List Node) :
    s.fetch documentId roots = .ok found ↔ s.IsFetched roots found := by
  rw [fetch_eq_map]
  simp only [IsFetched, forall₂_isCut_iff, ← fetch_uncut_eq_ok_iff s documentId]
  cases s.uncut.fetch documentId roots with
  | error e => simp [Except.map]
  | ok whole => simp [Except.map]

/-- Nothing is fetched for the first id that no node has. -/
theorem error?_fetch : error? (s.fetch documentId roots)
    = (s.nodeIds.find? fun id => id ∉ roots.values.map (·.id)).map (.nodeNotFound documentId) := by
  rw [fetch_eq_map, error?_map, error?_fetch_uncut]

/-! ### The selection of an import -/

/-- An import selects what is fetched without a depth, where pages count as what is inside them if
there are no ids. -/
theorem bind_selected (pageIds : List String) (text : Option String) :
    (({} : Selection).fetchFrom documentId text).bind
        (Import.selected (s.request documentId pageIds))
      = (s.uncut.fetchFrom documentId text).map fun whole =>
        if s.nodeIds = [] then Import.componentRoots whole else whole := by
  cases text with
  | none => rfl
  | some text =>
    rw [fetchFrom, fetchFrom]
    cases Export.load text with
    | error e => rfl
    | ok loaded =>
      have heverything : ({} : Selection).fetch documentId loaded.roots = .ok loaded.roots := rfl
      simp only [Except.bind, heverything, fetch_uncut_eq]
      split
      · next hnil =>
        have hnone : (s.request documentId pageIds).nodeIds = [] := hnil
        rw [Import.selected_of_nil hnone]
        rfl
      · next hne =>
        have hsome : (s.request documentId pageIds).nodeIds ≠ [] := hne
        rw [Import.selected_of_ne_nil hsome]
        exact (congrFun Except.map_id _).symm

/-! ### From an export -/

section Export

variable {text : String} {loaded : Export} (h : Export.load text = .ok loaded)

include h

theorem fetchFrom_eq : s.fetchFrom documentId (some text) = s.fetch documentId loaded.roots := by
  rw [fetchFrom, h]
  rfl

/-- **A selection is looked for and then cut below its depth.** What is fetched from an export is the
first node with each id, or all roots, down to the depth. It fails for the first id that no node has,
and only then. Without a depth it is what an import selects. -/
theorem fetchFrom_selection (pageIds : List String) :
    (∀ found, s.fetchFrom documentId (some text) = .ok found ↔ s.IsFetched loaded.roots found)
      ∧ (∀ e, s.fetchFrom documentId (some text) = .error e
        ↔ ∃ id, s.nodeIds.find? (fun id => id ∉ loaded.ids) = some id
          ∧ e = .nodeNotFound documentId id)
      ∧ ((∃ found, s.fetchFrom documentId (some text) = .ok found)
        ↔ ∀ id ∈ s.nodeIds, id ∈ loaded.ids)
      ∧ ∀ source, (({} : Selection).fetchFrom documentId source).bind
          (Import.selected (s.request documentId pageIds))
        = (s.uncut.fetchFrom documentId source).map fun whole =>
          if s.nodeIds = [] then Import.componentRoots whole else whole := by
  have herror : error? (s.fetch documentId loaded.roots)
      = (s.nodeIds.find? fun id => id ∉ loaded.ids).map (.nodeNotFound documentId) :=
    error?_fetch s documentId loaded.roots
  rw [fetchFrom_eq s documentId h]
  refine ⟨fetch_eq_ok_iff s documentId loaded.roots, fun e => ?_, ?_,
    bind_selected s documentId pageIds⟩
  · rw [← error?_eq_some_iff, herror, Option.map_eq_some_iff]
    simp only [eq_comm (a := e)]
  · rw [← error?_eq_none_iff, herror, Option.map_eq_none_iff, List.find?_eq_none]
    simp only [decide_not, Bool.not_eq_true', decide_eq_false_iff_not, not_not]

end Export

/-- A page with a frame in a frame: the inner one is fetched before and after the outer one, one
level deep each, and ids that the page does not have. -/
theorem fetchFrom_selection_of_page :
    let layer (id name kind : String) (inside : List Json) : Json :=
      .object [("id", .string id), ("name", .string name), ("type", .string kind),
        ("children", .array inside)]
    let v := layer "0:1" "Page 1" "CANVAS"
      [layer "1:1" "Home" "FRAME" [layer "1:2" "Card" "FRAME" [layer "1:3" "Title" "TEXT" []]]]
    let nested : Selection := { nodeIds := ["1:2", "1:1", "1:2"], depth := some 1 }
    let missing : Selection := { nodeIds := ["1:1", "9:9", "8:8"] }
    ∃ loaded, Export.load v.pretty = .ok loaded
      ∧ missing.fetchFrom "doc" (some v.pretty) = .error (.nodeNotFound "doc" "9:9")
      ∧ ∃ found, nested.fetchFrom "doc" (some v.pretty) = .ok found
        ∧ (found.map fun n => n.visits.map fun visit => (visit.1.id, visit.2))
          = [[("1:2", 0), ("1:3", 1)], [("1:1", 0), ("1:2", 1)], [("1:2", 0), ("1:3", 1)]] := by
  intro layer v nested missing
  have hplain : v.IsPlain := by simp [v, layer]
  let title : Node := .leaf { id := "1:3", name := "Title", kind := .text }
  let card : Node := ⟨{ id := "1:2", name := "Card", kind := .frame }, [title]⟩
  let home : Node := ⟨{ id := "1:1", name := "Home", kind := .frame }, [card]⟩
  let homeAlone : Node := ⟨home.value, [.leaf card.value]⟩
  let page : Node := ⟨{ id := "0:1", name := "Page 1", kind := .canvas }, [home]⟩
  have hload : Export.load v.pretty = .ok (.ofNode page) :=
    Export.load_pretty hplain (by decide) rfl
  obtain ⟨hfetched, -⟩ := fetchFrom_selection nested "doc" hload []
  obtain ⟨-, hfails, -⟩ := fetchFrom_selection missing "doc" hload []
  have hcard : Node.IsFirst [page] "1:2" card :=
    ⟨rfl, [(page, 0), (home, 1)], [(title, 3)], 2, rfl, by simp [page, home]⟩
  have hhome : Node.IsFirst [page] "1:1" home :=
    ⟨rfl, [(page, 0)], [(card, 2), (title, 3)], 1, rfl, by simp [page]⟩
  have hwhole : nested.IsFound [page] [card, home, card] :=
    .cons hcard (.cons hhome (.cons hcard .nil))
  have hcut : List.Forall₂ (IsCut nested.depth) [card, home, card] [card, homeAlone, card] :=
    .cons rfl (.cons rfl (.cons rfl .nil))
  refine ⟨_, hload, (hfails _).mpr ⟨"9:9", by decide +kernel, rfl⟩, _,
    (hfetched _).mpr ⟨_, hwhole, hcut⟩, rfl⟩

end Selection

end Handoff
