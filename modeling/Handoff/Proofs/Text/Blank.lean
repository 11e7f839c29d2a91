import Handoff.Proofs.Text.Search
import Handoff.Text.Basic
import Mathlib.Data.List.DropRight

/-!
# Text without the blanks at its ends

A text is trimmed to the part that has only blanks before it and after it, and
none at its own two ends (`trimmed_iff`). So a text with no blank at its ends stays
as it is (`trim_eq_self`), and nothing is left of a text exactly when it has
nothing but blanks (`trim_eq_nil_iff`). Words with a blank between each two of them
are the words of the text (`words_intercalate`).
-/

namespace Handoff.Text

/-! ### Trimming -/

/-- There is no blank at the two ends of a text. -/
structure NoBlankEnds (t : List Char) : Prop where
  first : ∀ c ∈ t.head?, isBlank c = false
  last : ∀ c ∈ t.getLast?, isBlank c = false

/-- The text `s` is `t` with blanks before it and after it, and `t` has none at its ends. -/
structure Trimmed (s t : List Char) : Prop where
  surrounded : ∃ before after, s = before ++ t ++ after
    ∧ (∀ c ∈ before, isBlank c = true) ∧ ∀ c ∈ after, isBlank c = true
  ends : NoBlankEnds t

theorem noBlankEnds_of_forall {t : List Char} (h : ∀ c ∈ t, isBlank c = false) : NoBlankEnds t :=
  ⟨fun c hc => h c (List.mem_of_mem_head? hc), fun c hc => h c (List.mem_of_mem_getLast? hc)⟩

theorem NoBlankEnds.replace {old new : Char} {t : List Char} (h : NoBlankEnds t)
    (hnew : isBlank new = false) : NoBlankEnds (replace old new t) := by
  have hreplaced : ∀ c, isBlank c = false → isBlank (if c = old then new else c) = false := by
    intro c hc
    split
    · exact hnew
    · exact hc
  constructor
  · intro d hd
    rw [Text.replace, List.head?_map] at hd
    obtain ⟨c, hc, rfl⟩ := Option.map_eq_some_iff.mp hd
    exact hreplaced c (h.first c hc)
  · intro d hd
    rw [Text.replace, List.getLast?_map] at hd
    obtain ⟨c, hc, rfl⟩ := Option.map_eq_some_iff.mp hd
    exact hreplaced c (h.last c hc)

theorem trim_eq_rdropWhile (s : List Char) : trim s = (s.dropWhile isBlank).rdropWhile isBlank := rfl

theorem head?_dropWhile_isBlank (s : List Char) :
    ∀ c ∈ (s.dropWhile isBlank).head?, isBlank c = false :=
  (longestRun_takeWhile isBlank s).stops

theorem noBlankEnds_trim (s : List Char) : NoBlankEnds (trim s) where
  first := by
    intro c hc
    obtain ⟨after, hafter⟩ := List.rdropWhile_prefix isBlank (s.dropWhile isBlank)
    refine head?_dropWhile_isBlank s c ?_
    rw [← hafter, ← trim_eq_rdropWhile, List.head?_append, Option.mem_def.mp hc]
    rfl
  last := by
    intro c hc
    rw [trim, List.getLast?_reverse] at hc
    exact head?_dropWhile_isBlank _ c hc

/-- What a text is trimmed to. -/
theorem trimmed_trim (s : List Char) : Trimmed s (trim s) where
  surrounded := by
    refine ⟨s.takeWhile isBlank, (s.dropWhile isBlank).rtakeWhile isBlank, ?_, ?_, ?_⟩
    · have hlast : trim s ++ (s.dropWhile isBlank).rtakeWhile isBlank = s.dropWhile isBlank := by
        rw [trim_eq_rdropWhile, List.rdropWhile_append_rtakeWhile]
      rw [List.append_assoc, hlast, List.takeWhile_append_dropWhile]
    · exact fun c hc => List.mem_takeWhile_imp hc
    · exact fun c hc => List.mem_rtakeWhile_imp hc
  ends := noBlankEnds_trim s

theorem trim_eq_nil_of_forall {s : List Char} (h : ∀ c ∈ s, isBlank c = true) : trim s = [] := by
  rw [trim, List.dropWhile_eq_nil_iff.mpr h]
  rfl

/-- A text is trimmed to one text only. -/
theorem trimmed_iff {s t : List Char} : Trimmed s t ↔ t = trim s := by
  constructor
  · rintro ⟨⟨before, after, rfl, hbefore, hafter⟩, hends⟩
    by_cases ht : t = []
    · subst ht
      rw [List.append_nil]
      refine (trim_eq_nil_of_forall fun c hc => ?_).symm
      exact (List.mem_append.mp hc).elim (hbefore c) (hafter c)
    · obtain ⟨c, more, hcons⟩ := List.exists_cons_of_ne_nil ht
      have hfirst : Parser.Stops isBlank (t ++ after) := by
        rw [hcons, List.cons_append, Parser.stops_cons]
        exact hends.first c (by rw [hcons]; rfl)
      have hlast : Parser.Stops isBlank t.reverse := by
        intro c hc
        rw [List.head?_reverse] at hc
        exact hends.last c hc
      have hreverse : ∀ c ∈ after.reverse, isBlank c = true :=
        fun c hc => hafter c (List.mem_reverse.mp hc)
      rw [trim, List.append_assoc, (Parser.takeWhile_stops hbefore hfirst).2, List.reverse_append,
        (Parser.takeWhile_stops hreverse hlast).2, List.reverse_reverse]
  · rintro rfl
    exact trimmed_trim s

theorem trim_eq_self {s : List Char} (h : NoBlankEnds s) : trim s = s := by
  have hself : Trimmed s s := ⟨⟨[], [], by simp, by simp, by simp⟩, h⟩
  exact (trimmed_iff.mp hself).symm

/-- Nothing is left of a text that has nothing but blanks. -/
theorem trim_eq_nil_iff {s : List Char} : trim s = [] ↔ ∀ c ∈ s, isBlank c = true := by
  refine ⟨fun h => ?_, trim_eq_nil_of_forall⟩
  obtain ⟨⟨before, after, hs, hbefore, hafter⟩, -⟩ := trimmed_trim s
  rw [h, List.append_nil] at hs
  rw [hs]
  exact fun c hc => (List.mem_append.mp hc).elim (hbefore c) (hafter c)

theorem trim_ne_nil_iff {s : List Char} : trim s ≠ [] ↔ ∃ c ∈ s, isBlank c = false := by
  rw [ne_eq, trim_eq_nil_iff]
  simp

/-- A text with no blank at its ends occurs in what is left if it occurs at all. -/
theorem isInfix_trim_iff {needle s : List Char} (hne : needle ≠ []) (hends : NoBlankEnds needle) :
    needle <:+: trim s ↔ needle <:+: s := by
  obtain ⟨before, after, hs, hbefore, hafter⟩ := (trimmed_trim s).surrounded
  have hhead : needle.head? = some (needle.head hne) := List.head?_eq_some_head hne
  have hlast : needle.getLast? = some (needle.getLast hne) := List.getLast?_eq_some_getLast hne
  have hnotBefore : needle.head hne ∉ before := by
    intro hmem
    exact Bool.false_ne_true ((hends.first _ hhead).symm.trans (hbefore _ hmem))
  have hnotAfter : needle.getLast hne ∉ after := by
    intro hmem
    exact Bool.false_ne_true ((hends.last _ hlast).symm.trans (hafter _ hmem))
  conv_rhs => rw [hs]
  rw [isInfix_append_iff_left hlast hnotAfter, isInfix_append_iff_right hhead hnotBefore]

/-- What stands behind a text with no blank at its ends is trimmed at the end only. -/
theorem trim_append {s : List Char} (hne : s ≠ []) (hends : NoBlankEnds s) (t : List Char) :
    trim (s ++ t) = s ++ t.rdropWhile isBlank := by
  refine (trimmed_iff.mp ⟨⟨[], t.rtakeWhile isBlank, ?_, by simp, ?_⟩, ?_, ?_⟩).symm
  · rw [List.nil_append, List.append_assoc, List.rdropWhile_append_rtakeWhile]
  · exact fun c hc => List.mem_rtakeWhile_imp hc
  · intro c hc
    rw [List.head?_append_of_ne_nil _ hne] at hc
    exact hends.first c hc
  · intro c hc
    by_cases hnil : t.rdropWhile isBlank = []
    · rw [hnil, List.append_nil] at hc
      exact hends.last c hc
    · rw [List.getLast?_append_of_ne_nil s hnil, List.getLast?_eq_some_getLast hnil] at hc
      obtain rfl := Option.some.inj hc
      exact Bool.eq_false_iff.mpr (List.rdropWhile_last_not isBlank t hnil)

/-- Replacing what is no blank by what is none leaves the blanks where they are. -/
theorem trim_replace {old new : Char} (hold : isBlank old = false) (hnew : isBlank new = false)
    (s : List Char) : trim (replace old new s) = replace old new (trim s) := by
  have hblank : isBlank ∘ (fun c => if c = old then new else c) = isBlank := by
    funext c
    rw [Function.comp_apply]
    split
    · next h => rw [hnew, h, hold]
    · rfl
  simp only [trim, replace, List.dropWhile_map, ← List.map_reverse, hblank]

/-! ### Words -/

/-- Words with a blank between each two are the words of the text. -/
theorem words_intercalate {ws : List (List Char)} (h : ∀ w ∈ ws, w ≠ [] ∧ ∀ c ∈ w, isBlank c = false) :
    words ([' '].intercalate ws) = ws := by
  induction ws with
  | nil => rfl
  | cons w ws ih =>
    obtain ⟨⟨hne, hw⟩, hws⟩ := List.forall_mem_cons.mp h
    have hword : (!w.isEmpty) = true := by simpa using hne
    by_cases hnil : ws = []
    · rw [hnil, List.intercalate_singleton, words, List.splitOnP_eq_singleton hw,
        List.filter_cons, if_pos hword, List.filter_nil]
    · rw [List.intercalate_cons_of_ne_nil hnil, List.append_assoc, List.singleton_append, words,
        List.splitOnP_append_cons_of_forall_mem hw ' ' (by rfl), List.filter_cons, if_pos hword]
      exact congrArg (w :: ·) (ih hws)

end Handoff.Text
