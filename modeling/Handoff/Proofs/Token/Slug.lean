import Handoff.Proofs.Text.Lowercase
import Handoff.Proofs.Text.Search
import Handoff.Proofs.Token.Name

/-!
# What slugs are made of

A slug is written character by character, with a dash put off until another word
begins. What is written are the words of the text in lowercase with dashes between
them (`slugPart_eq`). The proof is one induction on the text that is still to be read,
for the two states at once: within a word, and behind one (`slug_foldl_read`).

So the slug of a name has a segment for each part between slashes that has a letter
or a number, and a segment has neither slashes nor dashes in a wrong place
(`isSegment_segment`). On a slug without letters beyond ASCII nothing is left to be
done (`slug_slug`).
-/

namespace Handoff.Token

open Text

/-! ### Words -/

/-- The runs of letters and numbers of a text. -/
def words (s : List Char) : List (List Char) :=
  (s.splitOnP fun c => !isAlphanumeric c).filter fun word => !word.isEmpty

theorem words_nil : words [] = [] := rfl

/-- What is no letter or number belongs to no word. -/
theorem words_cons_of_not {c : Char} (hc : isAlphanumeric c = false) (s : List Char) :
    words (c :: s) = words s := by
  have hsplit : (c :: s).splitOnP (fun c => !isAlphanumeric c)
      = [] :: s.splitOnP fun c => !isAlphanumeric c := by
    rw [List.splitOnP_cons_eq_if_modifyHead, if_pos (by simp [hc])]
  rw [words, hsplit]
  rfl

/-- The parts of a text begin with the word that it begins with, which may be empty. -/
theorem exists_splitOnP_eq (s : List Char) :
    ∃ more, (s.splitOnP fun c => !isAlphanumeric c) = s.takeWhile isAlphanumeric :: more
      ∧ (more.filter fun word => !word.isEmpty) = words (s.dropWhile isAlphanumeric) := by
  induction s with
  | nil => exact ⟨[], rfl, rfl⟩
  | cons c s ih =>
    obtain ⟨more, hsplit, hmore⟩ := ih
    cases hc : isAlphanumeric c with
    | true =>
      refine ⟨more, ?_, ?_⟩
      · rw [List.splitOnP_cons_eq_if_modifyHead, if_neg (by simp [hc]), hsplit,
          List.takeWhile_cons_of_pos hc]
        rfl
      · rw [hmore, List.dropWhile_cons_of_pos hc]
    | false =>
      refine ⟨s.splitOnP fun c => !isAlphanumeric c, ?_, ?_⟩
      · rw [List.splitOnP_cons_eq_if_modifyHead, if_pos (by simp [hc]),
          List.takeWhile_cons_of_neg (by simp [hc])]
      · rw [List.dropWhile_cons_of_neg (by simp [hc]), words_cons_of_not hc]
        rfl

/-- A letter or number begins a word, which goes on as far as there are more. -/
theorem words_cons {c : Char} (hc : isAlphanumeric c = true) (s : List Char) :
    words (c :: s)
      = (c :: s.takeWhile isAlphanumeric) :: words (s.dropWhile isAlphanumeric) := by
  obtain ⟨more, hsplit, hmore⟩ := exists_splitOnP_eq (c :: s)
  rw [List.dropWhile_cons_of_pos hc] at hmore
  rw [List.takeWhile_cons_of_pos hc] at hsplit
  rw [words, hsplit, List.filter_cons_of_pos rfl, hmore]

theorem forall_mem_words {s word : List Char} (h : word ∈ words s) :
    word ≠ [] ∧ ∀ c ∈ word, isAlphanumeric c = true := by
  obtain ⟨hpart, hne⟩ := List.mem_filter.mp h
  refine ⟨by simpa using hne, fun c hc => ?_⟩
  simpa using forall_of_mem_splitOnP hpart c hc

/-- A text has words when it has a letter or a number. -/
theorem words_ne_nil_iff (s : List Char) : words s ≠ [] ↔ s.any isAlphanumeric = true := by
  induction s with
  | nil => simp [words_nil]
  | cons c s ih =>
    cases hc : isAlphanumeric c with
    | true => simp [words_cons hc, hc]
    | false => rw [words_cons_of_not hc, ih, List.any_cons, hc, Bool.false_or]

/-! ### Writing -/

/-- A word in lowercase. -/
def lowered (word : List Char) : List Char := word.flatMap lowercase

theorem lowered_ne_nil {word : List Char} (h : word ≠ []) : lowered word ≠ [] := by
  obtain ⟨c, rest, rfl⟩ := List.exists_cons_of_ne_nil h
  rw [lowered, List.flatMap_cons]
  exact List.append_ne_nil_of_left_ne_nil (lowercase_ne_nil c) _

/-- Words in lowercase, each behind a dash. -/
def dashed (words : List (List Char)) : List Char := words.flatMap fun word => '-' :: lowered word

theorem intercalate_cons_dashed (word : List Char) (more : List (List Char)) :
    ['-'].intercalate ((word :: more).map lowered) = lowered word ++ dashed more := by
  induction more generalizing word with
  | nil => simp [dashed]
  | cons next more ih =>
    rw [List.map_cons, List.intercalate_cons_of_ne_nil (by simp), ih]
    simp [dashed]

namespace OpenSlug

theorem read_of_not {c : Char} (hc : isAlphanumeric c = false) (s : OpenSlug) :
    s.read c = ⟨s.slug, true⟩ := by
  simp [read, hc]

theorem read_of_not_pending {c : Char} (hc : isAlphanumeric c = true) (slug : List Char) :
    read ⟨slug, false⟩ c = ⟨slug ++ lowercase c, false⟩ := by
  simp [read, hc]

theorem read_of_pending {c : Char} (hc : isAlphanumeric c = true) {slug : List Char}
    (hne : slug ≠ []) : read ⟨slug, true⟩ c = ⟨slug ++ '-' :: lowercase c, false⟩ := by
  simp [read, hc, hne]

/-- No dash is put before the first word. -/
theorem read_of_nil {c : Char} (hc : isAlphanumeric c = true) (pending : Bool) :
    read ⟨[], pending⟩ c = ⟨lowercase c, false⟩ := by
  simp [read, hc]

end OpenSlug

/-- After the slug of some words, the rest of a word goes on and each word behind it is put behind a
dash. Where no word goes on, all that comes is put behind dashes. -/
theorem slug_foldl_read {slug : List Char} (hne : slug ≠ []) (s : List Char) :
    (s.foldl OpenSlug.read ⟨slug, false⟩).slug
        = slug ++ lowered (s.takeWhile isAlphanumeric)
          ++ dashed (words (s.dropWhile isAlphanumeric))
      ∧ (s.foldl OpenSlug.read ⟨slug, true⟩).slug = slug ++ dashed (words s) := by
  induction s generalizing slug with
  | nil => simp [lowered, dashed, words_nil]
  | cons c s ih =>
    rw [List.foldl_cons, List.foldl_cons]
    cases hc : isAlphanumeric c with
    | true =>
      have hgoes : slug ++ lowercase c ≠ [] := List.append_ne_nil_of_left_ne_nil hne _
      have hbegins : slug ++ '-' :: lowercase c ≠ [] := List.append_ne_nil_of_left_ne_nil hne _
      rw [OpenSlug.read_of_not_pending hc, OpenSlug.read_of_pending hc hne, (ih hgoes).1,
        (ih hbegins).1, List.takeWhile_cons_of_pos hc, List.dropWhile_cons_of_pos hc, words_cons hc]
      simp [lowered, dashed]
    | false =>
      rw [OpenSlug.read_of_not hc, OpenSlug.read_of_not hc, (ih hne).2,
        List.takeWhile_cons_of_neg (by simp [hc]), List.dropWhile_cons_of_neg (by simp [hc]),
        words_cons_of_not hc]
      simp [lowered]

/-- Before the first word nothing is written. -/
theorem slug_foldl_read_nil (pending : Bool) (s : List Char) :
    (s.foldl OpenSlug.read ⟨[], pending⟩).slug = ['-'].intercalate ((words s).map lowered) := by
  induction s generalizing pending with
  | nil => rfl
  | cons c s ih =>
    rw [List.foldl_cons]
    cases hc : isAlphanumeric c with
    | true =>
      rw [OpenSlug.read_of_nil hc, (slug_foldl_read (lowercase_ne_nil c) s).1, words_cons hc,
        intercalate_cons_dashed]
      rfl
    | false => rw [OpenSlug.read_of_not hc, ih, words_cons_of_not hc]

/-! ### Segments -/

/-- What a part of a name gives to the slug: its words in lowercase with dashes between them. -/
def segment (part : List Char) : List Char := ['-'].intercalate ((words part).map lowered)

/-- What is written for a part is its segment. -/
theorem slugPart_eq (part : List Char) : slugPart part = segment part :=
  slug_foldl_read_nil false part

/-- A text that can stand between the slashes of a slug. -/
structure IsSegment (s : List Char) : Prop where
  /-- There is something in it. -/
  ne_nil : s ≠ []
  /-- It does not begin with a dash. -/
  begins : s.head? ≠ some '-'
  /-- It does not end with a dash. -/
  ends : s.getLast? ≠ some '-'
  /-- No two dashes follow each other. -/
  single : ¬ ['-', '-'] <:+: s
  /-- It has no slash. -/
  undivided : '/' ∉ s

theorem IsSegment.of_notMem {s : List Char} (hne : s ≠ []) (hdash : '-' ∉ s) (hslash : '/' ∉ s) :
    IsSegment s where
  ne_nil := hne
  begins := fun h => hdash (List.mem_of_head? h)
  ends := fun h => hdash (List.mem_of_getLast? h)
  single := fun h => hdash (h.subset List.mem_cons_self)
  undivided := hslash

/-- A word can be put before a segment, with a dash between them. -/
theorem IsSegment.cons {word rest : List Char} (hne : word ≠ []) (hdash : '-' ∉ word)
    (hslash : '/' ∉ word) (h : IsSegment rest) : IsSegment (word ++ '-' :: rest) where
  ne_nil := List.append_ne_nil_of_left_ne_nil hne _
  begins := by
    intro hhead
    rw [List.head?_append_of_ne_nil word hne] at hhead
    exact hdash (List.mem_of_head? hhead)
  ends := by
    intro hlast
    rw [List.getLast?_append_of_ne_nil word (List.cons_ne_nil _ _),
      List.getLast?_cons_of_ne_nil h.ne_nil] at hlast
    exact h.ends hlast
  single := by
    rw [isInfix_append_iff_right rfl hdash, List.infix_cons_iff, not_or]
    refine ⟨?_, h.single⟩
    rintro ⟨more, heq⟩
    rw [List.cons_append, List.cons.injEq] at heq
    exact h.begins (congrArg List.head? heq.2).symm
  undivided := by
    rw [List.mem_append, List.mem_cons, not_or, not_or]
    exact ⟨hslash, by decide, h.undivided⟩

theorem isSegment_intercalate {words : List (List Char)} (hne : words ≠ [])
    (h : ∀ word ∈ words, word ≠ [] ∧ '-' ∉ word ∧ '/' ∉ word) :
    IsSegment (['-'].intercalate words) := by
  induction words with
  | nil => exact absurd rfl hne
  | cons word more ih =>
    obtain ⟨⟨hword, hdash, hslash⟩, hmore⟩ := List.forall_mem_cons.mp h
    by_cases hnil : more = []
    · rw [hnil, List.intercalate_singleton]
      exact .of_notMem hword hdash hslash
    · rw [List.intercalate_cons_of_ne_nil hnil, List.append_assoc, List.singleton_append]
      exact .cons hword hdash hslash (ih hnil hmore)

/-- No letter and no number has a mark in its lowercase form. -/
theorem notMem_lowered {word : List Char} (hword : ∀ c ∈ word, isAlphanumeric c = true) {d : Char}
    (hpos : 0 < d.toNat) (hsmall : d.toNat < 0x61) (hd : isAlphanumeric d = false) :
    d ∉ lowered word := by
  intro hmem
  obtain ⟨c, hc, hdc⟩ := List.mem_flatMap.mp hmem
  rw [eq_of_mem_lowercase hpos hsmall hdc, hword c hc] at hd
  cases hd

/-- A part with a letter or a number has a segment. -/
theorem isSegment_segment {part : List Char} (h : part.any isAlphanumeric = true) :
    IsSegment (segment part) := by
  refine isSegment_intercalate ?_ (List.forall_mem_map.mpr fun word hword => ?_)
  · rw [ne_eq, List.map_eq_nil_iff]
    exact (words_ne_nil_iff part).mpr h
  · obtain ⟨hne, halphanumeric⟩ := forall_mem_words hword
    refine ⟨lowered_ne_nil hne, ?_, ?_⟩
    · exact notMem_lowered halphanumeric (by decide) (by decide) (by decide)
    · exact notMem_lowered halphanumeric (by decide) (by decide) (by decide)

/-- A part without letters and numbers has no segment. -/
theorem segment_eq_nil {part : List Char} (h : part.any isAlphanumeric = false) :
    segment part = [] := by
  have hwords : words part = [] := by
    by_contra hne
    rw [(words_ne_nil_iff part).mp hne] at h
    cases h
  rw [segment, hwords]
  rfl

/-! ### Slugs -/

/-- The parts of a name between slashes that have a letter or a number. -/
def wordyParts (name : String) : List (List Char) :=
  (name.toList.splitOn '/').filter fun part => part.any isAlphanumeric

theorem isSegment_of_mem_wordyParts {name : String} {part : List Char}
    (h : part ∈ wordyParts name) : IsSegment (segment part) :=
  isSegment_segment (List.mem_filter.mp h).2

theorem slugParts_eq (name : String) :
    slugParts name.toList = (wordyParts name).map segment := by
  have hsegments : (name.toList.splitOn '/').map slugPart = (name.toList.splitOn '/').map segment :=
    List.map_congr_left fun part _ => slugPart_eq part
  rw [slugParts, hsegments, List.filter_map, wordyParts]
  refine congrArg (List.map segment) (List.filter_congr fun part _ => ?_)
  cases h : part.any isAlphanumeric with
  | true => simpa using (isSegment_segment h).ne_nil
  | false => simp [segment_eq_nil h]

/-- A slug has a segment for each part with a letter or a number. -/
theorem toList_slug (name : String) :
    (slug name).toList = ['/'].intercalate ((wordyParts name).map segment) := by
  rw [slug, slugParts_eq, String.toList_ofList]

/-- There is one slash less than there are segments. -/
theorem count_slash_slug (name : String) :
    (slug name).toList.count '/' = (wordyParts name).length - 1 := by
  have hsegments : ∀ s ∈ (wordyParts name).map segment, '/' ∉ s :=
    List.forall_mem_map.mpr fun part hpart => (isSegment_of_mem_wordyParts hpart).undivided
  rw [toList_slug, count_intercalate hsegments, List.length_map]

theorem lowerHexDigit_ne_slash : ∀ n < 16, lowerHexDigit n ≠ '/' := by decide

/-- The name of a color has the slashes of the slug. -/
theorem count_slash_colorName (layer : String) (c : Color) :
    (colorName layer c.hex).toList.count '/' = (slug layer).toList.count '/' := by
  have hdigits : ∀ b : UInt8, (lowerHexOctet b).count '/' = 0 := by
    intro b
    obtain ⟨hhigh, hlow⟩ := octet_lt b
    simp [lowerHexOctet, lowerHexDigit_ne_slash _ hhigh, lowerHexDigit_ne_slash _ hlow]
  have hbase : (colorBase layer).toList.count '/' = (slug layer).toList.count '/' := by
    rw [colorBase]
    split
    · next h =>
      rw [h]
      rfl
    · rfl
  rw [Color.hex, colorName_hex]
  simp [hbase, hdigits]

/-! ### Slugs of slugs -/

/-- A text that begins with a word has it as its first word. -/
theorem words_append {word rest : List Char} (hne : word ≠ [])
    (hword : ∀ c ∈ word, isAlphanumeric c = true) (hrest : Parser.Stops isAlphanumeric rest) :
    words (word ++ rest) = word :: words rest := by
  obtain ⟨c, more, rfl⟩ := List.exists_cons_of_ne_nil hne
  obtain ⟨hc, hmore⟩ := List.forall_mem_cons.mp hword
  obtain ⟨htake, hdrop⟩ := Parser.takeWhile_stops hmore hrest
  rw [List.cons_append, words_cons hc, htake, hdrop]

/-- The words of a text that is made of words are these. -/
theorem words_intercalate {ws : List (List Char)}
    (h : ∀ word ∈ ws, word ≠ [] ∧ ∀ c ∈ word, isAlphanumeric c = true) :
    words (['-'].intercalate ws) = ws := by
  induction ws with
  | nil => rfl
  | cons word more ih =>
    obtain ⟨⟨hne, hword⟩, hmore⟩ := List.forall_mem_cons.mp h
    by_cases hnil : more = []
    · have hend : words (word ++ []) = word :: words [] :=
        words_append hne hword (by simp [Parser.Stops])
      rw [List.append_nil] at hend
      rw [hnil, List.intercalate_singleton, hend, words_nil]
    · have hdash : isAlphanumeric '-' = false := by decide
      rw [List.intercalate_cons_of_ne_nil hnil, List.append_assoc, List.singleton_append,
        words_append hne hword (by simpa [Parser.Stops] using hdash), words_cons_of_not hdash,
        ih hmore]

/-- A word of ASCII letters and digits has these in lowercase. -/
theorem lowered_eq_map {word : List Char} (h : ∀ c ∈ word, c.isAlphanum = true) :
    lowered word = word.map Char.toLower := by
  have hlowercase : ∀ c ∈ word, lowercase c = [c.toLower] :=
    fun c hc => lowercase_of_lt (toNat_lt_of_isAlphanum (h c hc))
  rw [lowered, List.flatMap_congr hlowercase, ← List.map_eq_flatMap]

theorem lowered_lowered {word : List Char} (h : ∀ c ∈ word, c.isAlphanum = true) :
    lowered (lowered word) = lowered word := by
  have hlower : ∀ c ∈ word.map Char.toLower, c.isAlphanum = true :=
    List.forall_mem_map.mpr fun c hc => isAlphanum_toLower (h c hc)
  rw [lowered_eq_map h, lowered_eq_map hlower, List.map_map]
  exact List.map_congr_left fun c hc => toLower_toLower (h c hc)

/-- In the segment of an ASCII part nothing changes. -/
theorem slugPart_segment {part : List Char} (h : ∀ c ∈ part, c.toNat < 128) :
    slugPart (segment part) = segment part := by
  have hascii : ∀ word ∈ words part, word ≠ [] ∧ ∀ c ∈ word, c.isAlphanum = true := by
    intro word hword
    obtain ⟨hne, halphanumeric⟩ := forall_mem_words hword
    have hsubset := subset_of_mem_splitOnP (List.mem_filter.mp hword).1
    exact ⟨hne, fun c hc => isAlphanum_of_isAlphanumeric (h c (hsubset hc)) (halphanumeric c hc)⟩
  have hlowered : ∀ word ∈ (words part).map lowered,
      word ≠ [] ∧ ∀ c ∈ word, isAlphanumeric c = true := by
    refine List.forall_mem_map.mpr fun word hword => ?_
    obtain ⟨hne, halphanum⟩ := hascii word hword
    refine ⟨lowered_ne_nil hne, ?_⟩
    rw [lowered_eq_map halphanum]
    exact List.forall_mem_map.mpr fun c hc =>
      isAlphanumeric_of_isAlphanum (isAlphanum_toLower (halphanum c hc))
  have hagain : ((words part).map lowered).map lowered = (words part).map lowered := by
    rw [List.map_map]
    exact List.map_congr_left fun word hword => lowered_lowered (hascii word hword).2
  rw [slugPart_eq, segment, segment, words_intercalate hlowered, hagain]

/-- A slug that is made of segments in which nothing changes is its own slug. -/
theorem slugParts_intercalate {segments : List (List Char)}
    (h : ∀ s ∈ segments, IsSegment s ∧ slugPart s = s) :
    slugParts (['/'].intercalate segments) = segments := by
  by_cases hnil : segments = []
  · rw [hnil]
    rfl
  · have hsplit := List.splitOn_intercalate '/' (fun s hs => (h s hs).1.undivided) hnil
    have hsame : segments.map slugPart = segments :=
      (List.map_congr_left fun s hs => (h s hs).2).trans (List.map_id segments)
    rw [slugParts, hsplit, hsame]
    refine List.filter_eq_self.mpr fun s hs => ?_
    simpa using (h s hs).1.ne_nil

/-- The slug of an ASCII name is its own slug. -/
theorem slug_slug {name : String} (h : ∀ c ∈ name.toList, c.toNat < 128) :
    slug (slug name) = slug name := by
  have hsegments : ∀ s ∈ (wordyParts name).map segment, IsSegment s ∧ slugPart s = s := by
    refine List.forall_mem_map.mpr fun part hpart => ?_
    have hpartOf := (List.mem_filter.mp hpart).1
    rw [List.splitOn_eq_splitOnP] at hpartOf
    have hsubset := subset_of_mem_splitOnP hpartOf
    exact ⟨isSegment_of_mem_wordyParts hpart, slugPart_segment fun c hc => h c (hsubset hc)⟩
  rw [slug, toList_slug, slugParts_intercalate hsegments, ← toList_slug, String.ofList_toList]

/-- **Slugs are canonical.** The slug of a name has a segment for each part between slashes that has
a letter or a number, in the order of the parts: the words of the part in lowercase with dashes
between them. No segment is empty, has a slash, begins or ends with a dash or has two dashes in a
row. So the name of a color has one slash when two parts of the name of its layer have a letter or a
number, and the slug of an ASCII name is its own slug. -/
theorem slug_canonical (name : String) :
    (slug name).toList = ['/'].intercalate ((wordyParts name).map segment)
      ∧ (∀ part ∈ wordyParts name, IsSegment (segment part))
      ∧ (∀ c : Color, (colorName name c.hex).toList.count '/' = 1 ↔ (wordyParts name).length = 2)
      ∧ ((∀ c ∈ name.toList, c.toNat < 128) → slug (slug name) = slug name) := by
  refine ⟨toList_slug name, fun _ => isSegment_of_mem_wordyParts, fun c => ?_, slug_slug⟩
  rw [count_slash_colorName, count_slash_slug]
  omega

/-- Of four parts two have words. -/
theorem slug_canonical_brand :
    (slug "/Brand Blue/ -- /500").toList = "brand-blue/500".toList
      ∧ (colorName "/Brand Blue/ -- /500" Color.black.hex).toList.count '/' = 1
      ∧ slug (slug "/Brand Blue/ -- /500") = slug "/Brand Blue/ -- /500" := by
  obtain ⟨hslug, -, hslash, hagain⟩ := slug_canonical "/Brand Blue/ -- /500"
  refine ⟨?_, (hslash Color.black).mpr (by decide +kernel), hagain (by simp)⟩
  rw [hslug]
  decide +kernel

end Handoff.Token
