import Handoff.Proofs.Parser
import Handoff.Text.Basic
import Mathlib.Data.List.Forall2
import Mathlib.Data.List.TakeWhile

/-!
# Where texts occur and how they are divided

What the searches in text find, said without a search: a text occurs in another
when that is made of a part before it, itself and a part after it
(`occurs_iff_isInfix`), and a text is divided at a character into what comes before
the first of them and what comes after it (`splitsAt_iff`). Replacing a character
that is in its place for another is undone by replacing it back
(`replace_replace`).
-/

namespace Handoff.Text

/-! ### Occurrences -/

/-- A text occurs where it is a part of the other. -/
theorem occurs_iff_isInfix (needle s : List Char) : occurs needle s = true ↔ needle <:+: s := by
  induction s with
  | nil => simp [occurs]
  | cons c s ih =>
    rw [occurs, Bool.or_eq_true, List.isPrefixOf_iff_prefix, ih, List.infix_cons_iff]

/-- A text whose last character is not in `t` occurs before `t` if it occurs at all. -/
theorem isInfix_append_iff_left {needle s t : List Char} {c : Char} (hlast : needle.getLast? = some c)
    (ht : c ∉ t) : needle <:+: s ++ t ↔ needle <:+: s := by
  refine ⟨fun h => ?_, fun h => h.trans (List.prefix_append s t).isInfix⟩
  rcases List.infix_append_iff.mp h with h | h | ⟨before, after, rfl, hbefore, hafter⟩
  · exact h
  · exact absurd (h.subset (List.mem_of_getLast? hlast)) ht
  · by_cases hnil : after = []
    · rw [hnil, List.append_nil]
      exact hbefore.isInfix
    · rw [List.getLast?_append_of_ne_nil before hnil] at hlast
      exact absurd (hafter.subset (List.mem_of_getLast? hlast)) ht

/-- A text does not begin in `s` and end behind it, where a character that it has not comes next. -/
theorem isPrefix_append_iff_left {needle s t : List Char} (ht : ∀ c ∈ t.head?, c ∉ needle) :
    needle <+: s ++ t ↔ needle <+: s := by
  refine ⟨fun h => ?_, fun h => h.trans (List.prefix_append s t)⟩
  rcases List.prefix_or_prefix_of_prefix h (List.prefix_append s t) with h' | ⟨more, rfl⟩
  · exact h'
  · cases more with
    | nil => exact (List.append_nil s).symm ▸ List.prefix_refl s
    | cons c more =>
      obtain ⟨rest, rfl⟩ := (List.prefix_append_right_inj s).mp h
      exact absurd (List.mem_append_right s List.mem_cons_self) (ht c rfl)

/-- A text whose first character is not in `s` occurs behind `s` if it occurs at all. -/
theorem isInfix_append_iff_right {needle s t : List Char} {c : Char} (hfirst : needle.head? = some c)
    (hs : c ∉ s) : needle <:+: s ++ t ↔ needle <:+: t := by
  induction s with
  | nil => rfl
  | cons d s ih =>
    obtain ⟨hne, hs⟩ := not_or.mp (mt List.mem_cons.mpr hs)
    have hstart : ¬needle <+: d :: (s ++ t) := by
      rintro ⟨more, heq⟩
      have hhead := congrArg List.head? heq
      rw [List.head?_append, hfirst] at hhead
      exact hne (Option.some.inj hhead)
    rw [List.cons_append, List.infix_cons_iff, ih hs, or_iff_right hstart]

/-- A text occurs on one side of a character that it has not. -/
theorem isInfix_append_cons_iff {needle s t : List Char} {c : Char} (hc : c ∉ needle) :
    needle <:+: s ++ c :: t ↔ needle <:+: s ∨ needle <:+: t := by
  have hnext : ∀ d ∈ (c :: t).head?, d ∉ needle := by
    rintro d ⟨⟩
    exact hc
  induction s with
  | nil =>
    have hstart : needle <+: c :: t ↔ needle <:+: [] := by
      rw [← List.nil_append (c :: t), isPrefix_append_iff_left hnext, List.prefix_nil, List.infix_nil]
    rw [List.nil_append, List.infix_cons_iff, hstart]
  | cons d s ih =>
    have hstart : needle <+: d :: (s ++ c :: t) ↔ needle <+: d :: s :=
      isPrefix_append_iff_left (s := d :: s) hnext
    have hinside : needle <:+: d :: s ↔ needle <+: d :: s ∨ needle <:+: s := List.infix_cons_iff
    rw [List.cons_append, List.infix_cons_iff, hinside, or_assoc]
    exact or_congr hstart ih

theorem after?_eq_some_iff {start s rest : List Char} :
    after? start s = some rest ↔ s = start ++ rest := by
  unfold after?
  constructor
  · intro h
    split at h
    · next hprefix =>
      obtain ⟨more, rfl⟩ := List.isPrefixOf_iff_prefix.mp hprefix
      rw [List.drop_left] at h
      rw [Option.some.inj h]
    · cases h
  · rintro rfl
    rw [if_pos (List.isPrefixOf_iff_prefix.mpr (List.prefix_append start rest)), List.drop_left]

/-! ### Division -/

/-- The text `s` has `a` before its first `c`, and `b` after it. -/
inductive SplitsAt (c : Char) : List Char → List Char → List Char → Prop where
  /-- Without any `c` all of the text comes before, and nothing after. -/
  | absent {s : List Char} (h : c ∉ s) : SplitsAt c s s []
  /-- No `c` comes before the first. -/
  | present {a b : List Char} (h : c ∉ a) : SplitsAt c (a ++ c :: b) a b

theorem before_cons_self (c : Char) (s : List Char) : before c (c :: s) = [] := by
  simp [before]

theorem behind_cons_self (c : Char) (s : List Char) : behind c (c :: s) = s := by
  simp [behind]

theorem before_cons_ne {c d : Char} (h : d ≠ c) (s : List Char) :
    before c (d :: s) = d :: before c s := by
  simp [before, h]

theorem behind_cons_ne {c d : Char} (h : d ≠ c) (s : List Char) :
    behind c (d :: s) = behind c s := by
  simp [behind, h]

theorem SplitsAt.cons {c d : Char} (h : d ≠ c) {s a b : List Char} (hs : SplitsAt c s a b) :
    SplitsAt c (d :: s) (d :: a) b := by
  cases hs with
  | absent hc => exact .absent (List.not_mem_cons_of_ne_of_not_mem h.symm hc)
  | present hc => exact .present (List.not_mem_cons_of_ne_of_not_mem h.symm hc)

/-- A character without what all of a text have is not in it. -/
theorem notMem_of_forall {p : Char → Bool} {s : List Char} (h : ∀ c ∈ s, p c = true) {c : Char}
    (hc : p c = false) : c ∉ s := by
  intro hmem
  rw [h c hmem] at hc
  cases hc

/-- What comes before and after the first `c` of a text. -/
theorem splitsAt_before_behind (c : Char) (s : List Char) : SplitsAt c s (before c s) (behind c s) := by
  induction s with
  | nil => exact .absent List.not_mem_nil
  | cons d s ih =>
    by_cases h : d = c
    · rw [h, before_cons_self, behind_cons_self]
      exact .present List.not_mem_nil
    · rw [before_cons_ne h, behind_cons_ne h]
      exact ih.cons h

theorem forall_ne_of_notMem {c : Char} {a : List Char} (h : c ∉ a) :
    ∀ d ∈ a, decide (d ≠ c) = true := by
  rintro d hd
  exact decide_eq_true fun heq => h (heq ▸ hd)

theorem before_append {c : Char} {a : List Char} (h : c ∉ a) (s : List Char) :
    before c (a ++ s) = a ++ before c s :=
  List.takeWhile_append_of_pos (forall_ne_of_notMem h)

theorem behind_append {c : Char} {a : List Char} (h : c ∉ a) (s : List Char) :
    behind c (a ++ s) = behind c s :=
  congrArg (List.drop 1) (List.dropWhile_append_of_pos (forall_ne_of_notMem h))

/-- A text is divided in one way only. -/
theorem splitsAt_iff {c : Char} {s a b : List Char} :
    SplitsAt c s a b ↔ a = before c s ∧ b = behind c s := by
  constructor
  · intro h
    cases h with
    | absent h =>
      have hbefore : before c (s ++ []) = s ++ [] := before_append h []
      have hbehind : behind c (s ++ []) = [] := behind_append h []
      rw [List.append_nil] at hbefore hbehind
      exact ⟨hbefore.symm, hbehind.symm⟩
    | present h =>
      rw [before_append h, behind_append h, before_cons_self, behind_cons_self, List.append_nil]
      exact ⟨rfl, rfl⟩
  · rintro ⟨rfl, rfl⟩
    exact splitsAt_before_behind c s

/-- Texts are divided alike at characters that are the first in them. -/
theorem append_cons_eq_iff {c : Char} {a a' b b' : List Char} (ha : c ∉ a) (ha' : c ∉ a') :
    a ++ c :: b = a' ++ c :: b' ↔ a = a' ∧ b = b' := by
  constructor
  · intro h
    have hsplit : SplitsAt c (a ++ c :: b) a b := .present ha
    have hsplit' : SplitsAt c (a ++ c :: b) a' b' := h ▸ .present ha'
    rw [splitsAt_iff] at hsplit hsplit'
    exact ⟨hsplit.1.trans hsplit'.1.symm, hsplit.2.trans hsplit'.2.symm⟩
  · rintro ⟨rfl, rfl⟩
    rfl

/-- No part has a character that divides the text. -/
theorem forall_of_mem_splitOnP {p : Char → Bool} {s part : List Char} (h : part ∈ s.splitOnP p) :
    ∀ c ∈ part, p c = false := by
  induction s generalizing part with
  | nil =>
    rw [List.splitOnP_nil, List.mem_singleton] at h
    simp [h]
  | cons d s ih =>
    rw [List.splitOnP_cons_eq_if_modifyHead] at h
    split at h
    · rcases List.mem_cons.mp h with rfl | h
      · simp
      · exact ih h
    · next hd =>
      obtain ⟨first, more, hcons⟩ := List.exists_cons_of_ne_nil (List.splitOnP_ne_nil p s)
      rw [hcons] at h ih
      rcases List.mem_cons.mp h with rfl | h
      · exact List.forall_mem_cons.mpr ⟨Bool.eq_false_iff.mpr hd, ih List.mem_cons_self⟩
      · exact ih (List.mem_cons_of_mem first h)

/-- What is in a part is in the text. -/
theorem subset_of_mem_splitOnP {p : Char → Bool} {s part : List Char} (h : part ∈ s.splitOnP p) :
    part ⊆ s := by
  induction s generalizing part with
  | nil =>
    rw [List.splitOnP_nil, List.mem_singleton] at h
    rw [h]
    exact List.nil_subset []
  | cons d s ih =>
    rw [List.splitOnP_cons_eq_if_modifyHead] at h
    split at h
    · rcases List.mem_cons.mp h with rfl | h
      · exact List.nil_subset _
      · exact List.Subset.trans (ih h) (List.subset_cons_self d s)
    · obtain ⟨first, more, hcons⟩ := List.exists_cons_of_ne_nil (List.splitOnP_ne_nil p s)
      rw [hcons] at h ih
      rcases List.mem_cons.mp h with rfl | h
      · exact List.cons_subset_cons d (ih List.mem_cons_self)
      · have hpart := ih (List.mem_cons_of_mem first h)
        exact List.Subset.trans hpart (List.subset_cons_self d s)

/-- No part of a text has the separator. -/
theorem notMem_of_mem_splitOn {c : Char} {s part : List Char} (h : part ∈ s.splitOn c) : c ∉ part := by
  rw [List.splitOn_eq_splitOnP] at h
  intro hc
  have hne := forall_of_mem_splitOnP h c hc
  simp at hne

/-- A text has two parts where the separator stands in it once, between them. -/
theorem splitOn_eq_pair_iff {c : Char} {s before after : List Char} :
    s.splitOn c = [before, after] ↔ s = before ++ c :: after ∧ c ∉ before ∧ c ∉ after := by
  constructor
  · intro h
    have hjoin : [c].intercalate (s.splitOn c) = s := List.intercalate_splitOn c
    have hparts : ∀ part ∈ s.splitOn c, c ∉ part := fun _ => notMem_of_mem_splitOn
    rw [h] at hjoin hparts
    refine ⟨?_, hparts before (by simp), hparts after (by simp)⟩
    rw [← hjoin]
    simp
  · rintro ⟨rfl, hbefore, hafter⟩
    have hparts : ∀ part ∈ [before, after], c ∉ part := by
      simp only [List.forall_mem_cons]
      exact ⟨hbefore, hafter, by simp⟩
    have hsplit := List.splitOn_intercalate c hparts (List.cons_ne_nil _ _)
    simpa using hsplit

/-- The parts of a text are the texts without the separator that it is put together from. -/
theorem filter_splitOn {c : Char} {parts : List (List Char)} (h : ∀ part ∈ parts, c ∉ part) :
    (([c].intercalate parts).splitOn c).filter (· ≠ []) = parts.filter (· ≠ []) := by
  by_cases hnil : parts = []
  · rw [hnil]
    rfl
  · rw [List.splitOn_intercalate c h hnil]

theorem forall₂_splitsAt_iff {c : Char} {parts : List (List Char)} {ps : List (List Char × List Char)} :
    List.Forall₂ (fun part p => SplitsAt c part p.1 p.2) parts ps
      ↔ ps = parts.map fun part => (before c part, behind c part) := by
  have hsplits : ∀ (part : List Char) (p : List Char × List Char),
      SplitsAt c part p.1 p.2 ↔ (before c part, behind c part) = p := by
    intro part p
    rw [splitsAt_iff, Prod.ext_iff, eq_comm, eq_comm (a := p.2)]
  simp only [hsplits]
  rw [← List.forall₂_map_left_iff, List.forall₂_eq_eq_eq, eq_comm]

/-! ### Runs -/

/-- The text `s` begins with `run`, which goes as far as the characters satisfy `p`. -/
structure LongestRun (p : Char → Bool) (s run rest : List Char) : Prop where
  split : s = run ++ rest
  all : ∀ c ∈ run, p c = true
  stops : Parser.Stops p rest

theorem longestRun_takeWhile (p : Char → Bool) (s : List Char) :
    LongestRun p s (s.takeWhile p) (s.dropWhile p) where
  split := List.takeWhile_append_dropWhile.symm
  all := fun _ hc => List.mem_takeWhile_imp hc
  stops := by
    intro c hc
    have hnot := List.head?_dropWhile_not p s
    rw [Option.mem_def.mp hc] at hnot
    simpa using hnot

/-- There is one longest run only. -/
theorem longestRun_iff {p : Char → Bool} {s run rest : List Char} :
    LongestRun p s run rest ↔ run = s.takeWhile p ∧ rest = s.dropWhile p := by
  constructor
  · rintro ⟨rfl, hall, hstops⟩
    obtain ⟨htake, hdrop⟩ := Parser.takeWhile_stops hall hstops
    exact ⟨htake.symm, hdrop.symm⟩
  · rintro ⟨rfl, rfl⟩
    exact longestRun_takeWhile p s

theorem takeWhile_eq_nil_iff {p : Char → Bool} {s : List Char} :
    s.takeWhile p = [] ↔ ¬∃ c ∈ s.head?, p c = true := by
  cases s with
  | nil => simp
  | cons c s => simp [List.takeWhile_cons]

/-! ### Joining -/

/-- What holds of a separator and of all that is in the parts holds of all that is in the text. -/
theorem forall_mem_intercalate {P : Char → Prop} {sep : Char} {parts : List (List Char)} (hsep : P sep)
    (h : ∀ part ∈ parts, ∀ c ∈ part, P c) : ∀ c ∈ [sep].intercalate parts, P c := by
  induction parts with
  | nil => simp
  | cons part parts ih =>
    obtain ⟨hpart, hparts⟩ := List.forall_mem_cons.mp h
    by_cases hnil : parts = []
    · rw [hnil, List.intercalate_singleton]
      exact hpart
    · rw [List.intercalate_cons_of_ne_nil hnil, List.append_assoc, List.singleton_append,
        List.forall_mem_append, List.forall_mem_cons]
      exact ⟨hpart, hsep, ih hparts⟩

/-- There is one separator less than there are parts. -/
theorem count_intercalate {sep : Char} {parts : List (List Char)} (h : ∀ part ∈ parts, sep ∉ part) :
    ([sep].intercalate parts).count sep = parts.length - 1 := by
  induction parts with
  | nil => rfl
  | cons part parts ih =>
    obtain ⟨hpart, hparts⟩ := List.forall_mem_cons.mp h
    by_cases hnil : parts = []
    · rw [hnil, List.intercalate_singleton, List.count_eq_zero.mpr hpart]
      rfl
    · have hpos : 0 < parts.length := List.length_pos_iff.mpr hnil
      rw [List.intercalate_cons_of_ne_nil hnil, List.append_assoc, List.singleton_append,
        List.count_append, List.count_cons_self, List.count_eq_zero.mpr hpart, ih hparts,
        List.length_cons]
      omega

/-- A text that is put together begins with the first of its parts. -/
theorem prefix_intercalate_cons (sep part : List Char) (parts : List (List Char)) :
    part <+: sep.intercalate (part :: parts) := by
  by_cases hnil : parts = []
  · exact ⟨[], by rw [hnil, List.intercalate_singleton, List.append_nil]⟩
  · rw [List.intercalate_cons_of_ne_nil hnil, List.append_assoc]
    exact List.prefix_append _ _

/-- A text that is put together ends with the last of its parts. -/
theorem suffix_intercalate_concat (sep part : List Char) (parts : List (List Char)) :
    part <:+ sep.intercalate (parts ++ [part]) := by
  induction parts with
  | nil => exact ⟨[], by rw [List.nil_append, List.nil_append, List.intercalate_singleton]⟩
  | cons first parts ih =>
    rw [List.cons_append, List.intercalate_cons_of_ne_nil (by simp)]
    exact ih.trans (List.suffix_append _ _)

/-! ### Replacement -/

theorem replace_eq_nil_iff {old new : Char} {s : List Char} : replace old new s = [] ↔ s = [] :=
  List.map_eq_nil_iff

theorem replace_eq_self {old new : Char} {s : List Char} (h : old ∉ s) : replace old new s = s := by
  refine (List.map_congr_left fun c hc => ?_).trans (List.map_id s)
  have hne : c ≠ old := fun heq => h (heq ▸ hc)
  exact if_neg hne

theorem replace_append (old new : Char) (s t : List Char) :
    replace old new (s ++ t) = replace old new s ++ replace old new t := List.map_append

/-- Where only the separators are replaced, the parts are joined by another separator. -/
theorem replace_intercalate {old new : Char} {parts : List (List Char)}
    (h : ∀ part ∈ parts, old ∉ part) :
    replace old new ([old].intercalate parts) = [new].intercalate parts := by
  induction parts with
  | nil => rfl
  | cons part parts ih =>
    obtain ⟨hpart, hparts⟩ := List.forall_mem_cons.mp h
    by_cases hnil : parts = []
    · rw [hnil, List.intercalate_singleton, List.intercalate_singleton, replace_eq_self hpart]
    · have hsep : replace old new [old] = [new] := by simp [replace]
      rw [List.intercalate_cons_of_ne_nil hnil, List.intercalate_cons_of_ne_nil hnil, replace_append,
        replace_append, replace_eq_self hpart, hsep, ih hparts]

/-- A character for another that is not there is put back. -/
theorem replace_replace {old new : Char} {s : List Char} (h : new ∉ s) :
    replace new old (replace old new s) = s := by
  induction s with
  | nil => rfl
  | cons c s ih =>
    obtain ⟨hc, hs⟩ := not_or.mp (mt List.mem_cons.mpr h)
    have hback : (if (if c = old then new else c) = new then old else if c = old then new else c) = c := by
      by_cases hold : c = old
      · rw [if_pos hold, if_pos rfl, hold]
      · rw [if_neg hold, if_neg (Ne.symm hc)]
    have htail : replace new old (replace old new s) = s := ih hs
    simp only [replace, List.map_cons] at htail ⊢
    rw [hback, htail]

theorem notMem_replace {c old new : Char} {s : List Char} (hnew : c ≠ new) (hs : c ∉ s) :
    c ∉ replace old new s := by
  intro hmem
  obtain ⟨d, hd, hcd⟩ := List.mem_map.mp hmem
  split at hcd
  · exact hnew hcd.symm
  · exact hs (hcd ▸ hd)

/-- What is replaced by something else is gone. -/
theorem notMem_replace_self {old new : Char} (h : old ≠ new) (s : List Char) :
    old ∉ replace old new s := by
  intro hmem
  obtain ⟨c, -, hc⟩ := List.mem_map.mp hmem
  split at hc
  · exact h hc.symm
  · next hne => exact hne hc

end Handoff.Text
