import Handoff.Proofs.Theme.Sections
import Handoff.Proofs.Token.Name
import Handoff.Proofs.Token.Occurrences
import Mathlib.Logic.Function.Basic

/-!
# What a theme keeps of text styles and shadows

Text styles and shadows have an entry each in a theme, under their names. Tokens
of different fonts or shapes can have the same name, and where an object of a
script is given two values under one key, the later counts (`evaluated`). So what
counts at a name is the last token that has it, and each token counts exactly if
no two have the same name (`themeText_last_of_name_counts`).
-/

namespace Handoff

/-! ### Objects -/

section Objects

variable {τ β : Type}

/--
The value of an object at each key. Its entries are put in one after the other, so that a later one
takes the place of an earlier one with its key.
-/
def evaluated (entries : List (String × β)) : String → Option β :=
  entries.foldl (fun (object : String → Option β) e => Function.update object e.1 (some e.2))
    fun _ => none

/-- The last entry with a key counts. -/
theorem evaluated_eq (entries : List (String × β)) (key : String) :
    evaluated entries key = (entries.reverse.find? fun e => e.1 = key).map Prod.snd := by
  -- Carried through the entries from an object that any entries before have led to.
  have hfold : ∀ object : String → Option β,
      entries.foldl (fun (object : String → Option β) e => Function.update object e.1 (some e.2))
          object key
        = ((entries.reverse.find? fun e => e.1 = key).map Prod.snd).or (object key) := by
    induction entries with
    | nil => exact fun object => rfl
    | cons e entries ih =>
      intro object
      rw [List.foldl_cons, ih, List.reverse_cons, List.find?_append, Option.map_or, Option.or_assoc]
      congr 1
      by_cases hkey : e.1 = key
      · rw [hkey, Function.update_self, List.find?_singleton, if_pos (decide_eq_true hkey)]
        rfl
      · rw [Function.update_of_ne (Ne.symm hkey), List.find?_singleton, if_neg (by simpa using hkey)]
        rfl
  rw [evaluated, hfold, Option.or_none]

theorem evaluated_map (name : τ → String) (value : τ → β) (tokens : List τ) (key : String) :
    evaluated (tokens.map fun t => (name t, value t)) key
      = (tokens.reverse.find? fun t => name t = key).map value := by
  rw [evaluated_eq, ← List.map_reverse, List.find?_map, Option.map_map]
  rfl

/-- Of the tokens that have the same name, the last counts. -/
structure LastOfNameCounts (tokens : List τ) (same : τ → τ → Prop) (name : τ → String) (value : τ → β)
    (entries : List (String × β)) : Prop where
  /-- Every token has its entry, in order. -/
  entries_eq : entries = tokens.map fun t => (name t, value t)
  /-- Which tokens have the same name. -/
  shared : ∀ s ∈ tokens, ∀ t ∈ tokens, name s = name t ↔ same s t
  /-- What counts at a key is the last token that has it as its name. -/
  last : ∀ key, evaluated entries key = (tokens.reverse.find? fun t => name t = key).map value
  /-- A token counts when no later one has its name. -/
  kept : ∀ before t after, tokens = before ++ t :: after → (∀ u ∈ after, ¬same t u) →
    evaluated entries (name t) = some (value t)
  /-- No key stands twice exactly if no two tokens have the same name. -/
  once : (entries.map Prod.fst).Nodup ↔ tokens.Pairwise fun s t => ¬same s t

theorem lastOfNameCounts_of_mem {same : τ → τ → Prop} {name : τ → String} (value : τ → β)
    {tokens : List τ} (hsame : ∀ s ∈ tokens, ∀ t ∈ tokens, name s = name t ↔ same s t) :
    LastOfNameCounts tokens same name value (tokens.map fun t => (name t, value t)) where
  entries_eq := rfl
  shared := hsame
  last := evaluated_map name value tokens
  kept := by
    rintro before t after rfl hlater
    have hnone : (after.reverse.find? fun u => name u = name t) = none := by
      refine List.find?_eq_none.mpr fun u hu hname => ?_
      have hu := List.mem_reverse.mp hu
      exact hlater u hu ((hsame t (by simp) u (by simp [hu])).mp (of_decide_eq_true hname).symm)
    rw [evaluated_map, List.reverse_append, List.reverse_cons, List.append_assoc, List.find?_append,
      hnone, Option.none_or, List.singleton_append,
      List.find?_cons_of_pos (p := fun u => decide (name u = name t)) (decide_eq_true rfl),
      Option.map_some]
  once := by
    rw [List.map_map, List.Nodup, List.pairwise_map]
    exact List.Pairwise.iff_of_mem fun {s t} hs ht => not_congr (hsame s hs t ht)

theorem lastOfNameCounts_map {same : τ → τ → Prop} {name : τ → String} (value : τ → β)
    (hsame : ∀ s t, name s = name t ↔ same s t) (tokens : List τ) :
    LastOfNameCounts tokens same name value (tokens.map fun t => (name t, value t)) :=
  lastOfNameCounts_of_mem value fun s _ t _ => hsame s t

end Objects

/-! ### The names of text styles and shadows -/

/-- Two texts get the same name: their sizes and their weights have the same class. -/
def StyledText.SameName (s t : StyledText) : Prop :=
  Token.sizeClass s.size = Token.sizeClass t.size ∧ Token.weightClass s.weight = Token.weightClass t.weight

theorem StyledText.name_eq_iff (s t : StyledText) : s.token.name = t.token.name ↔ s.SameName t :=
  Token.typographyName_eq_iff s.size t.size s.weight t.weight

/-- What a theme says of a text style: the size and the line height in pixels. -/
def StyledText.sizes (t : StyledText) : String × String :=
  (t.token.fontSize.quantity ++ "px", t.token.lineHeight.quantity ++ "px")

/-- Two shadows get the same name: both lie inside or not, and their layers give them the same. -/
def FirstShadow.SameName (s t : FirstShadow) : Prop :=
  (s.shadow.kind = .innerShadow ↔ t.shadow.kind = .innerShadow)
    ∧ Token.shadowBase s.layer.name = Token.shadowBase t.layer.name

theorem FirstShadow.name_eq_iff (s t : FirstShadow) : s.token.name = t.token.name ↔ s.SameName t := by
  simp only [token, SameName, Token.shadowName_eq_iff, decide_eq_decide]

namespace TokenSet

/-- The texts whose tokens are extracted. -/
def keptTexts (roots : Forest Layer) (kinds : TokenKinds) : List StyledText :=
  if kinds.typography then firstOf StyledText.SameFont (styledTexts roots) else []

/-- The shadows whose tokens are extracted. -/
def keptShadows (roots : Forest Layer) (kinds : TokenKinds) : List FirstShadow :=
  if kinds.effects then firstOf FirstShadow.SameShape (firstShadows roots) else []

theorem typography_extract (roots : Forest Layer) (kinds : TokenKinds) :
    (extract roots kinds).typography = (keptTexts roots kinds).map StyledText.token := by
  rw [(firstOccurrences_extract roots kinds).typography, keptTexts]
  split <;> rfl

theorem effects_extract (roots : Forest Layer) (kinds : TokenKinds) :
    (extract roots kinds).effects = (keptShadows roots kinds).map FirstShadow.token := by
  rw [(firstOccurrences_extract roots kinds).effects, keptShadows]
  split <;> rfl

/--
**The last text style and the last shadow of each name count.** The tokens of a forest come from texts
of different fonts and shadows of different shapes. In the text of the theme each has its entry, and
where several have the same name, the last of them counts.
-/
theorem themeText_last_of_name_counts (roots : Forest Layer) (kinds : TokenKinds) :
    (extract roots kinds).typography = (keptTexts roots kinds).map StyledText.token
      ∧ (extract roots kinds).effects = (keptShadows roots kinds).map FirstShadow.token
      ∧ ∃ theme, Theme.read? (extract roots kinds).themeText = some theme
        ∧ LastOfNameCounts (keptTexts roots kinds) StyledText.SameName (fun t => t.token.name)
          StyledText.sizes theme.fontSizes
        ∧ LastOfNameCounts (keptShadows roots kinds) FirstShadow.SameName (fun s => s.token.name)
          (fun s => s.token.boxShadow) theme.shadows := by
  refine ⟨typography_extract roots kinds, effects_extract roots kinds, _, Theme.read?_text _, ?_, ?_⟩
  · have hcounts := lastOfNameCounts_map StyledText.sizes StyledText.name_eq_iff (keptTexts roots kinds)
    rw [Theme.ofTokens, typography_extract, List.map_map]
    exact hcounts
  · have hcounts := lastOfNameCounts_map (fun s : FirstShadow => s.token.boxShadow)
      FirstShadow.name_eq_iff (keptShadows roots kinds)
    rw [Theme.ofTokens, effects_extract, List.map_map]
    exact hcounts

/-- Two texts in one frame, of sizes with one class and with shadows of two shapes. -/
def twoBodies : Node :=
  ⟨{ id := "1:1", kind := .frame }, [
    .leaf {
      id := "1:2"
      name := "b"
      kind := .text
      style := some { fontFamily := some "Inter", fontSize := some 16 }
      effects := [.dropShadow ⟨0, 1⟩ 4 .black] },
    .leaf {
      id := "1:3"
      name := "b"
      kind := .text
      style := some { fontFamily := some "Inter", fontSize := some 15 }
      effects := [.dropShadow ⟨0, 1⟩ 8 .black] }]⟩

/-- The two text styles have one key, and so have the two shadows. -/
theorem not_nodup_twoBodies :
    ∃ theme, Theme.read? (extract [twoBodies] {}).themeText = some theme
      ∧ ¬(theme.fontSizes.map Prod.fst).Nodup ∧ ¬(theme.shadows.map Prod.fst).Nodup := by
  refine ⟨_, Theme.read?_text _, ?_, ?_⟩
  · decide +kernel
  · decide +kernel

end TokenSet

end Handoff
