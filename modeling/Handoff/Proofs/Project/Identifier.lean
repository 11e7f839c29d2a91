import Handoff.Project.Name
import Handoff.Proofs.Text.Ascii
import Handoff.Proofs.Text.Search
import Handoff.Script

/-!
# Identifiers and stems

Whatever the name of a layer is, its component can be declared under the name made
of it, and its screen can be kept in a file of that name. The name of a component
begins with a capital, and has ASCII letters and digits only
(`isCapitalized_identifier`). The name of a file has runs of small letters and
digits with single dashes between them (`isDashed_stem`).

How runs of letters and digits are taken apart matters little. Both hold for every
way to do it that loses nothing and leaves no word empty (**`names_usable`**), and
the one that is used is of this kind (`splitsRuns_splitRun`).
-/

namespace Handoff.Name

open Text

/-! ### Words -/

/-- Some ASCII letters and digits. -/
structure IsWord (word : List Char) : Prop where
  /-- There is at least one. -/
  ne_nil : word ≠ []
  /-- All are letters and digits. -/
  alphanum : ∀ c ∈ word, c.isAlphanum = true

/-- A way to take runs of letters and digits apart. -/
structure SplitsRuns (split : List Char → List (List Char)) : Prop where
  /-- Nothing of a run is lost. -/
  flatten : ∀ run, IsWord run → (split run).flatten = run
  /-- No word is empty. -/
  ne_nil : ∀ run, IsWord run → ∀ word ∈ split run, word ≠ []

/-- Nothing of a run is lost when it is taken apart. -/
theorem flatten_splitRun (run : List Char) : (splitRun run).flatten = run := by
  fun_induction splitRun run with
  | case1 => rfl
  | case2 c => rfl
  | case3 c d rest words hdivides ih => exact congrArg (c :: ·) ih
  | case4 c d rest words hdivides word more hwords ih =>
    rw [← ih]
    exact congrArg (fun words => c :: List.flatten words) hwords.symm
  | case5 c d rest words hdivides hwords ih =>
    have hnil := (congrArg List.flatten hwords).symm.trans ih
    cases hnil

/-- Every word has a letter or a digit. -/
theorem forall_ne_nil_splitRun (run : List Char) : ∀ word ∈ splitRun run, word ≠ [] := by
  fun_induction splitRun run with
  | case1 => simp
  | case2 c => simp
  | case3 c d rest words hdivides ih => exact List.forall_mem_cons.mpr ⟨List.cons_ne_nil _ _, ih⟩
  | case4 c d rest words hdivides word more hwords ih =>
    have hmore : ∀ word ∈ more, word ≠ [] := by
      intro later hlater
      have hmem : later ∈ words := by
        rw [hwords]
        exact List.mem_cons_of_mem word hlater
      exact ih later hmem
    exact List.forall_mem_cons.mpr ⟨List.cons_ne_nil _ _, hmore⟩
  | case5 c d rest words hdivides hwords ih => simp

/-- A run is divided where letters and digits meet, and where capitals begin words. -/
theorem splitsRuns_splitRun : SplitsRuns splitRun where
  flatten := fun run _ => flatten_splitRun run
  ne_nil := fun run _ => forall_ne_nil_splitRun run

theorem isWord_of_mem_runs {name : String} {run : List Char} (h : run ∈ runs name) :
    IsWord run := by
  obtain ⟨hpart, hne⟩ := List.mem_filter.mp h
  refine ⟨by simpa using hne, fun c hc => ?_⟩
  simpa using forall_of_mem_splitOnP hpart c hc

theorem SplitsRuns.isWord {split : List Char → List (List Char)} (hsplit : SplitsRuns split)
    {name : String} {word : List Char} (h : word ∈ (runs name).flatMap split) : IsWord word := by
  obtain ⟨run, hrun, hword⟩ := List.mem_flatMap.mp h
  have hisWord := isWord_of_mem_runs hrun
  refine ⟨hsplit.ne_nil run hisWord word hword, fun c hc => hisWord.alphanum c ?_⟩
  rw [← hsplit.flatten run hisWord]
  exact List.mem_flatten_of_mem hword hc

/-- The first letter of a word becomes a capital and the others small ones. -/
theorem isAlphanum_of_mem_capitalized {word : List Char} (h : ∀ c ∈ word, c.isAlphanum = true) :
    ∀ c ∈ capitalized word, c.isAlphanum = true := by
  cases word with
  | nil => simp [capitalized]
  | cons c rest =>
    obtain ⟨hc, hrest⟩ := List.forall_mem_cons.mp h
    refine List.forall_mem_cons.mpr ⟨isAlphanum_toUpper hc, fun d hd => ?_⟩
    obtain ⟨e, he, rfl⟩ := List.mem_map.mp hd
    exact isAlphanum_toLower (hrest e he)

/-! ### Identifiers -/

/-- An identifier of ASCII letters and digits. -/
structure IsPlainIdentifier (s : String) : Prop where
  /-- It begins with a letter. -/
  begins : ∃ c ∈ s.toList.head?, c.isAlpha = true
  /-- It has letters and digits and nothing else. -/
  alphanum : ∀ c ∈ s.toList, c.isAlphanum = true

theorem IsPlainIdentifier.isIdentifier {s : String} (h : IsPlainIdentifier s) :
    Script.isIdentifier s = true := by
  obtain ⟨c, hc, halpha⟩ := h.begins
  obtain ⟨rest, hrest⟩ := List.head?_eq_some_iff.mp hc
  rw [Script.isIdentifier, hrest]
  have hmore : ∀ d ∈ rest, Script.continuesIdentifier d = true := by
    intro d hd
    have := h.alphanum d (hrest ▸ List.mem_cons_of_mem c hd)
    simp [Script.continuesIdentifier, this]
  simpa [Script.startsIdentifier, halpha] using hmore

/-- A capital with ASCII letters and digits behind it. -/
def IsCapitalized (s : String) : Prop :=
  ∃ c rest, s.toList = c :: rest ∧ c.isUpper = true ∧ ∀ d ∈ rest, d.isAlphanum = true

theorem IsCapitalized.isPlainIdentifier {s : String} (h : IsCapitalized s) :
    IsPlainIdentifier s := by
  obtain ⟨c, rest, hs, hupper, hrest⟩ := h
  have halpha : c.isAlpha = true := Bool.or_eq_true_iff.mpr (.inl hupper)
  have halphanum : c.isAlphanum = true := by rw [Char.isAlphanum, halpha, Bool.true_or]
  refine ⟨⟨c, by rw [hs]; rfl, halpha⟩, ?_⟩
  rw [hs]
  exact List.forall_mem_cons.mpr ⟨halphanum, hrest⟩

/-- Letters and digits can stand behind the word that is put before them. -/
theorem isCapitalized_append {letters : List Char} (h : ∀ c ∈ letters, c.isAlphanum = true) :
    IsCapitalized ("Component" ++ .ofList letters) := by
  have hdefault : ∀ c ∈ "omponent".toList, c.isAlphanum = true := List.all_eq_true.mp (by decide)
  have htext : ("Component" ++ String.ofList letters).toList = "Component".toList ++ letters :=
    String.toList_append.trans (congrArg ("Component".toList ++ ·) String.toList_ofList)
  exact ⟨'C', "omponent".toList ++ letters, htext, rfl, List.forall_mem_append.mpr ⟨hdefault, h⟩⟩

/-- The words with capitals are an identifier, or become one by a word before them. -/
theorem isCapitalized_identifier {words : List (List Char)} (h : ∀ word ∈ words, IsWord word) :
    IsCapitalized (identifier words) := by
  have hchars : ∀ c ∈ words.flatMap capitalized, c.isAlphanum = true := by
    intro c hc
    obtain ⟨word, hword, hc⟩ := List.mem_flatMap.mp hc
    exact isAlphanum_of_mem_capitalized (h word hword).alphanum c hc
  cases words with
  | nil => exact isCapitalized_append (List.forall_mem_nil _)
  | cons word more =>
    obtain ⟨hword, -⟩ := List.forall_mem_cons.mp h
    obtain ⟨c, rest, rfl⟩ := List.exists_cons_of_ne_nil hword.ne_nil
    have hletters : ((c :: rest) :: more).flatMap capitalized
        = c.toUpper :: (rest.map Char.toLower ++ more.flatMap capitalized) := rfl
    rw [hletters] at hchars
    simp only [identifier, hletters]
    -- A digit cannot begin an identifier.
    by_cases hdigit : c.toUpper.isDigit = true
    · rw [if_pos hdigit]
      exact isCapitalized_append hchars
    · rw [if_neg hdigit]
      have hfirst := isUpper_or_isDigit_toUpper (hword.alphanum c List.mem_cons_self)
      obtain ⟨-, hrest⟩ := List.forall_mem_cons.mp hchars
      exact ⟨c.toUpper, _, String.toList_ofList, hfirst.resolve_right hdigit, hrest⟩

/-! ### Stems -/

/-- A text of ASCII letters, digits and dashes. -/
def IsPlainStem (s : String) : Prop := ∀ c ∈ s.toList, c.isAlphanum = true ∨ c = '-'

theorem IsPlainIdentifier.isPlainStem {s : String} (h : IsPlainIdentifier s) : IsPlainStem s :=
  fun c hc => .inl (h.alphanum c hc)

/-- Nothing in the text divides a path or a name from its ending, and all is ASCII. -/
theorem IsPlainStem.plain {s : String} (h : IsPlainStem s) {c : Char} (hc : c ∈ s.toList) :
    c ≠ '/' ∧ c ≠ '.' ∧ c.toNat < 128 := by
  rcases h c hc with halpha | rfl
  · exact ⟨ne_of_isAlphanum halpha rfl, ne_of_isAlphanum halpha rfl, toNat_lt_of_isAlphanum halpha⟩
  · decide

/-- Runs of small letters and digits, at least one, with single dashes between them. -/
def IsDashed (s : String) : Prop :=
  ∃ runs ≠ [], (∀ run ∈ runs, run ≠ [] ∧ ∀ c ∈ run, c.isLower = true ∨ c.isDigit = true)
    ∧ s.toList = ['-'].intercalate runs

theorem IsDashed.isPlainStem {s : String} (h : IsDashed s) : IsPlainStem s := by
  obtain ⟨runs, -, hruns, hs⟩ := h
  rw [IsPlainStem, hs]
  refine forall_mem_intercalate (.inr rfl) fun run hrun c hc => .inl ?_
  rcases (hruns run hrun).2 c hc with hlower | hdigit
  · have halpha : c.isAlpha = true := Bool.or_eq_true_iff.mpr (.inr hlower)
    simp [Char.isAlphanum, halpha]
  · simp [Char.isAlphanum, hdigit]

/-- The words in lowercase are the runs of a stem. -/
theorem isDashed_stem {words : List (List Char)} (h : ∀ word ∈ words, IsWord word) :
    IsDashed (stem words) := by
  rw [stem]
  split
  · have hletters : ∀ c ∈ "screen".toList, c.isLower = true := List.all_eq_true.mp (by decide)
    refine ⟨["screen".toList], List.cons_ne_nil _ _, ?_, rfl⟩
    exact List.forall_mem_singleton.mpr ⟨by decide, fun c hc => .inl (hletters c hc)⟩
  · next joined hjoined =>
    refine ⟨words.map fun word => word.map Char.toLower, ?_, ?_, String.toList_ofList⟩
    · intro hnil
      exact hjoined (by rw [hnil]; rfl)
    · intro run hrun
      obtain ⟨word, hword, rfl⟩ := List.mem_map.mp hrun
      refine ⟨by simpa using (h word hword).ne_nil, fun c hc => ?_⟩
      obtain ⟨d, hd, rfl⟩ := List.mem_map.mp hc
      exact isLower_or_isDigit_toLower ((h word hword).alphanum d hd)

/-! ### Usable names -/

/-- **Generated names can always be used**, whatever the name of the layer is and however its runs
of letters and digits are taken apart. The name of the component is a capital with ASCII letters and
digits behind it. The name of the screen file is made of runs of small letters and digits with
single dashes between them. -/
theorem names_usable {split : List Char → List (List Char)} (hsplit : SplitsRuns split)
    (name : String) :
    IsCapitalized (identifier ((runs name).flatMap split))
      ∧ IsDashed (stem ((runs name).flatMap split)) :=
  ⟨isCapitalized_identifier fun _ => hsplit.isWord, isDashed_stem fun _ => hsplit.isWord⟩

/-- A name that begins with a digit and has letters beyond ASCII and several capitals in a row. -/
theorem names_usable_mixed :
    SplitsRuns splitRun ∧ IsCapitalized (component "3D / étéHTMLPage")
      ∧ IsDashed (screen "3D / étéHTMLPage") :=
  ⟨splitsRuns_splitRun, names_usable splitsRuns_splitRun "3D / étéHTMLPage"⟩

end Handoff.Name
