import Handoff.Proofs.Component.Outline
import Handoff.Proofs.Project.Files
import Mathlib.Data.List.Forall2

/-!
# Hidden layers do not leak

What a design looks like to somebody who cannot see inside its hidden layers is
a relation on designs: two agree outside hidden layers when they have the same
layers around each other, down to places where both have a hidden layer of the
same id and name (`Node.AgreeOutsideHidden`). What such a layer is, what it shows
and what is inside it may then differ. Designs that agree become the same
component (`Node.convert_eq_of_agree`), and so nothing that is generated for
components tells them apart (`Node.hidden_do_not_leak`). The theme and the token
file are not among that: tokens are taken from hidden layers too.
-/

namespace Handoff

namespace Node

/-- The designs are the same, except for what hidden layers are and what is inside them. -/
inductive AgreeOutsideHidden : Node → Node → Prop where
  /-- Both layers are hidden, with the same id and the same name. -/
  | hidden {l m : Layer} {ts us : List Node} (hl : l.visible = some false)
      (hm : m.visible = some false) (hid : l.id = m.id) (hname : l.name = m.name) :
      AgreeOutsideHidden ⟨l, ts⟩ ⟨m, us⟩
  /-- Both layers are the same, and what is inside agrees one by one. -/
  | same (l : Layer) {ts us : List Node} (h : List.Forall₂ AgreeOutsideHidden ts us) :
      AgreeOutsideHidden ⟨l, ts⟩ ⟨l, us⟩

variable {conversion : ConversionOptions} (classifier : Classifier)

/-- Designs that agree one by one become the same components, if each of the first does. -/
theorem map_convert_eq {ts us : List Node} (h : List.Forall₂ AgreeOutsideHidden ts us)
    (heq : ∀ t ∈ ts, ∀ u, AgreeOutsideHidden t u →
      convert conversion classifier t = convert conversion classifier u) :
    ts.map (convert conversion classifier) = us.map (convert conversion classifier) := by
  induction h with
  | nil => rfl
  | cons htu _ ih =>
    obtain ⟨hfirst, hmore⟩ := List.forall_mem_cons.mp heq
    rw [List.map_cons, List.map_cons, hfirst _ htu, ih hmore]

variable (hhidden : conversion.includeHidden = false)

include hhidden

/-- **Designs that agree outside hidden layers become the same component.** -/
theorem convert_eq_of_agree {n m : Node} (h : AgreeOutsideHidden n m) :
    convert conversion classifier n = convert conversion classifier m := by
  induction n using Tree.children_induction generalizing m with
  | node l children ih =>
    cases h with
    | hidden hl hm hid hname =>
      have homitted := (Layer.isOmitted_iff conversion _).mpr ⟨hl, hhidden⟩
      have homitted' := (Layer.isOmitted_iff conversion _).mpr ⟨hm, hhidden⟩
      rw [convert_node, convert_node, if_pos homitted, if_pos homitted', hid, hname]
    | same _ hchildren =>
      rw [convert_node, convert_node,
        map_convert_eq classifier hchildren fun t ht _ htu => ih t ht htu]

end Node

namespace Project

/-- The project without the theme and the token file. -/
def withoutTheme (project : Project) : Project :=
  { project with files := project.files.filter (·.kind ≠ .theme) }

/-- Without the theme and the token file it only matters for a project whether there are tokens. -/
theorem withoutTheme_generate (options : GenerationOptions) (components : List Component)
    {tokens tokens' : Option TokenSet} (h : tokens.isSome = tokens'.isSome) :
    (generate options components tokens).map withoutTheme
      = (generate options components tokens').map withoutTheme := by
  have htokens : ∀ tokens, (tokenFiles options tokens).filter (·.kind ≠ .theme) = [] :=
    fun tokens => List.filter_eq_nil_iff.mpr fun f hf => by simp [kind_of_mem_tokenFiles hf]
  have hnone : tokens.isNone = tokens'.isNone := by
    rw [← Option.not_isSome, ← Option.not_isSome, h]
  rw [generate, generate, hnone]
  split
  · rfl
  · cases componentFiles options components with
    | error e => rfl
    | ok files => simp only [Except.map, withoutTheme, List.filter_append, htokens]

end Project

namespace Node

/-- **Hidden layers do not leak.** Designs that agree outside hidden layers become the same
components with the same source, and their projects have the same files of components, the same
pictures and the same list of these, whatever the tokens of each are. -/
theorem hidden_do_not_leak {conversion : ConversionOptions}
    (hhidden : conversion.includeHidden = false) (classifier : Classifier) {ns ms : List Node}
    (h : List.Forall₂ AgreeOutsideHidden ns ms) :
    ns.map (convert conversion classifier) = ms.map (convert conversion classifier)
      ∧ ∀ options,
        (ns.map fun n => (convert conversion classifier n).source options)
          = (ms.map fun m => (convert conversion classifier m).source options)
        ∧ ∀ tokens tokens' : Option TokenSet, tokens.isSome = tokens'.isSome →
          (Project.generate options (ns.map (convert conversion classifier)) tokens).map
              Project.withoutTheme
            = (Project.generate options (ms.map (convert conversion classifier)) tokens').map
              Project.withoutTheme := by
  have hconvert := map_convert_eq classifier h fun t _ u htu =>
    convert_eq_of_agree classifier hhidden htu
  refine ⟨hconvert, fun options => ⟨?_, fun tokens tokens' htokens => ?_⟩⟩
  · have hsource := congrArg (List.map (Component.source options)) hconvert
    rwa [List.map_map, List.map_map] at hsource
  · rw [hconvert]
    exact Project.withoutTheme_generate options _ htokens

/-- A hidden picture, and a hidden text with a button inside, in a card. -/
theorem hidden_do_not_leak_card :
    let card (hidden : Node) : Node := ⟨{ id := "1:1", name := "Card", kind := .frame }, [hidden]⟩
    let picture : Node := .leaf {
      id := "1:2", name := "a", kind := .rectangle, visible := some false
      fills := [{ kind := .image, imageRef := some "secret" }] }
    let note : Node := ⟨{
      id := "1:2", name := "a", kind := .text, visible := some false, characters := some "secret" },
      [.leaf { id := "1:3", name := "Button", kind := .frame }]⟩
    ({} : ConversionOptions).includeHidden = false
      ∧ List.Forall₂ AgreeOutsideHidden [card picture] [card note]
      ∧ [card picture].map (convert {} .standard) = [card note].map (convert {} .standard)
      ∧ (Project.generate {} ([card picture].map (convert {} .standard)) none).map
          Project.withoutTheme
        = (Project.generate {} ([card note].map (convert {} .standard)) none).map
          Project.withoutTheme := by
  intro card picture note
  have hhidden : ({} : ConversionOptions).includeHidden = false := rfl
  have hagree : List.Forall₂ AgreeOutsideHidden [card picture] [card note] :=
    .cons (.same _ (.cons (.hidden rfl rfl rfl rfl) .nil)) .nil
  obtain ⟨hconvert, hproject⟩ := hidden_do_not_leak hhidden .standard hagree
  exact ⟨hhidden, hagree, hconvert, (hproject {}).2 none none rfl⟩

end Node

end Handoff
