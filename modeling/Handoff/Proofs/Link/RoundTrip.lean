import Handoff.Link
import Handoff.Proofs.Link.Grammar
import Handoff.Proofs.Link.Percent
import Handoff.Proofs.Text.Ascii
import Mathlib.Data.Bool.AllAny

/-!
# Links that are written are read back

A link whose ids have no character that its text gives a meaning to (`Writable`) is
read back from its text: the same file, node and page, and the name as it is shown
for the slug that stands in the text (`shownName`). A name of plain words with
single blanks between them is shown as it is (`IsPlainName.shownName_eq`), so that
such a link is read back unchanged.

The text is a path of characters that end nothing (`path`) and a query of
parameters (`parametersText`). One lemma each finds the two in the text, the route
in the path, and the node and the page in the query; `parse_build` puts them
together.
-/

namespace Handoff

open Text

/-! ### Characters -/

namespace Link

/-- Whether a character can stand in the slug of a name. -/
def isSlugChar (c : Char) : Bool := c.isAlphanum || c = '-' || c = '_'

/-- What can stand in a slug is ASCII. -/
theorem toNat_lt_of_isSlugChar {c : Char} (h : isSlugChar c = true) : c.toNat < 128 := by
  simp only [isSlugChar, Bool.or_eq_true, decide_eq_true_eq] at h
  rcases h with (h | rfl) | rfl
  · exact toNat_lt_of_isAlphanum h
  · decide
  · decide

theorem isBlank_of_isSlugChar {c : Char} (h : isSlugChar c = true) : isBlank c = false := by
  have hascii : ∀ n < 128, isSlugChar (Char.ofNat n) = true → isBlank (Char.ofNat n) = false := by
    decide +kernel
  exact holds_of_codes (P := fun c => isSlugChar c = true → isBlank c = false) hascii
    (toNat_lt_of_isSlugChar h) h

theorem isSlugChar_of_isAlphanum {c : Char} (h : c.isAlphanum = true) : isSlugChar c = true := by
  simp [isSlugChar, h]

theorem isAlphanum_of_isDigit {c : Char} (h : c.isDigit = true) : c.isAlphanum = true := by
  simp [Char.isAlphanum, h]

/-! ### The name -/

/-- The name that stands in the text of a link. -/
def writtenName (name : Option String) : List Char :=
  let slug := (name.map fun name => nameSlug name.toList).getD []
  if slug = [] then "Untitled".toList else slug

/-- The name that a link is read back with: what its text has, with blanks for dashes. -/
def shownName (name : Option String) : Option String :=
  let shown := replace '-' ' ' (writtenName name)
  if shown.all isBlank then none else some (.ofList shown)

theorem isSlugChar_of_mem_nameSlug (name : List Char) : ∀ c ∈ nameSlug name, isSlugChar c = true := by
  refine forall_mem_intercalate (by decide) fun word hword c hc => ?_
  obtain ⟨kept, -, rfl⟩ := List.mem_map.mp (List.mem_filter.mp hword).1
  exact (List.mem_filter.mp hc).2

theorem isSlugChar_of_mem_writtenName (name : Option String) :
    ∀ c ∈ writtenName name, isSlugChar c = true := by
  rw [writtenName]
  split
  · exact List.all_eq_true.mp (by decide)
  · cases name with
    | none => simp
    | some name => exact isSlugChar_of_mem_nameSlug name.toList

theorem writtenName_ne_nil (name : Option String) : writtenName name ≠ [] := by
  rw [writtenName]
  split
  · decide
  · next h => exact h

/-- What the path says after the id is the name as it is shown. -/
theorem name?_writtenName (name : Option String) :
    (name? ('/' :: writtenName name)).map .ofList = shownName name := by
  have hslug := isSlugChar_of_mem_writtenName name
  have hbefore : before '/' (writtenName name) = writtenName name :=
    (splitsAt_iff.mp (.absent (notMem_of_forall hslug rfl))).1.symm
  have hdecode : Percent.decode (writtenName name) = writtenName name :=
    Percent.decode_eq_self (notMem_of_forall hslug rfl) (notMem_of_forall hslug rfl)
  simp only [name?, hbefore, hdecode, List.isEmpty_iff, trim_eq_nil_iff, Bool.or_eq_true,
    writtenName_ne_nil, false_or]
  simp only [shownName, List.all_eq_true]
  split <;> rfl

/-- A word of letters, digits and underscores. -/
def IsPlainWord (word : List Char) : Prop := word ≠ [] ∧ ∀ c ∈ word, c.isAlphanum = true ∨ c = '_'

/-- A name of plain words with one blank between each two. -/
def IsPlainName (name : String) : Prop :=
  ∃ words : List (List Char), words ≠ [] ∧ (∀ word ∈ words, IsPlainWord word)
    ∧ name.toList = [' '].intercalate words

theorem IsPlainWord.isSlugChar {word : List Char} (h : IsPlainWord word) :
    ∀ c ∈ word, isSlugChar c = true := by
  intro c hc
  rcases h.2 c hc with hc | rfl
  · exact isSlugChar_of_isAlphanum hc
  · decide

theorem IsPlainWord.dash_notMem {word : List Char} (h : IsPlainWord word) : '-' ∉ word := by
  intro hmem
  rcases h.2 '-' hmem with hc | hc <;> exact absurd hc (by decide)

/-- The slug of plain words has them with dashes between. -/
theorem nameSlug_intercalate {words : List (List Char)} (h : ∀ word ∈ words, IsPlainWord word) :
    nameSlug ([' '].intercalate words) = ['-'].intercalate words := by
  have hwords : Text.words ([' '].intercalate words) = words := by
    refine words_intercalate fun word hword => ⟨(h word hword).1, fun c hc => ?_⟩
    exact isBlank_of_isSlugChar ((h word hword).isSlugChar c hc)
  have hkept : (words.map fun word => word.filter fun c => c.isAlphanum || c = '-' || c = '_')
      = words := by
    refine (List.map_congr_left fun word hword => ?_).trans (List.map_id words)
    exact List.filter_eq_self.mpr ((h word hword).isSlugChar)
  have hne : words.filter (fun word => !word.isEmpty) = words := by
    refine List.filter_eq_self.mpr fun word hword => ?_
    simpa using (h word hword).1
  simp only [nameSlug, hwords, hkept, hne]

/-- A plain name has a character that its slug has too. -/
theorem IsPlainName.exists_isSlugChar {name : String} (h : IsPlainName name) :
    ∃ c ∈ name.toList, isSlugChar c = true := by
  obtain ⟨words, hne, hwords, hname⟩ := h
  obtain ⟨first, more, rfl⟩ := List.exists_cons_of_ne_nil hne
  have hfirst := hwords first List.mem_cons_self
  obtain ⟨c, hc⟩ := List.exists_mem_of_ne_nil first hfirst.1
  refine ⟨c, ?_, hfirst.isSlugChar c hc⟩
  rw [hname]
  exact (prefix_intercalate_cons _ first more).subset hc

/-- A plain name is shown as it is. -/
theorem IsPlainName.shownName_eq {name : String} (h : IsPlainName name) :
    shownName (some name) = some name := by
  obtain ⟨c, hc, hslug⟩ := h.exists_isSlugChar
  obtain ⟨words, hne, hwords, hname⟩ := h
  have hreplaced : replace '-' ' ' (nameSlug name.toList) = name.toList := by
    rw [hname, nameSlug_intercalate hwords,
      replace_intercalate fun word hword => (hwords word hword).dash_notMem]
  have hslug_ne : nameSlug name.toList ≠ [] := by
    intro hnil
    rw [← hreplaced, hnil] at hc
    cases hc
  have hwritten : writtenName (some name) = nameSlug name.toList := if_neg hslug_ne
  have hblank : ¬name.toList.all isBlank = true := by
    intro hall
    have hblank := List.all_eq_true.mp hall c hc
    rw [isBlank_of_isSlugChar hslug] at hblank
    cases hblank
  simp only [shownName, hwritten, hreplaced]
  rw [if_neg hblank, String.ofList_toList]

/-! ### Parameters -/

/-- The text of a parameter. -/
def spelled (p : List Char × List Char) : List Char := p.1 ++ '=' :: p.2

/-- The text of parameters. -/
def parametersText (ps : List (List Char × List Char)) : List Char := ['&'].intercalate (ps.map spelled)

/-- A parameter without the characters that parameters end at. -/
structure PlainParameter (p : List Char × List Char) : Prop where
  key : ∀ c ∈ ['=', '&', '#'], c ∉ p.1
  value : ∀ c ∈ ['&', '#'], c ∉ p.2

theorem PlainParameter.notMem_spelled {p : List Char × List Char} (h : PlainParameter p) :
    ∀ c ∈ ['&', '#'], c ∉ spelled p := by
  intro c hc hmem
  rcases List.mem_append.mp hmem with hkey | hvalue
  · exact h.key c (List.mem_cons_of_mem _ hc) hkey
  · rcases List.mem_cons.mp hvalue with rfl | hvalue
    · exact absurd hc (by decide)
    · exact h.value c hc hvalue

variable {ps : List (List Char × List Char)} (hps : ∀ p ∈ ps, PlainParameter p)
include hps

theorem parameters_parametersText : parameters (parametersText ps) = ps := by
  refine (parametersOf_iff.mp ⟨ps.map spelled, rfl, ?_, ?_⟩).symm
  · rintro part hpart
    obtain ⟨p, hp, rfl⟩ := List.mem_map.mp hpart
    exact (hps p hp).notMem_spelled '&' (by decide)
  · have hkept : (ps.map spelled).filter (· ≠ []) = ps.map spelled := by
      refine List.filter_eq_self.mpr fun part hpart => ?_
      obtain ⟨p, -, rfl⟩ := List.mem_map.mp hpart
      exact decide_eq_true (List.append_ne_nil_of_right_ne_nil _ (List.cons_ne_nil _ _))
    rw [hkept, List.forall₂_map_left_iff, List.forall₂_same]
    exact fun p hp => .present ((hps p hp).key '=' (by decide))

theorem notMem_parametersText : '#' ∉ parametersText ps := by
  have hne : ∀ c ∈ parametersText ps, c ≠ '#' := by
    refine forall_mem_intercalate (by decide) fun part hpart c hc heq => ?_
    obtain ⟨p, hp, rfl⟩ := List.mem_map.mp hpart
    exact (hps p hp).notMem_spelled '#' (by decide) (heq ▸ hc)
  exact fun h => hne '#' h rfl

omit hps

/-- The text of parameters ends as the value of the last does. -/
theorem exists_suffix_parametersText (hne : ps ≠ []) :
    ∃ p ∈ ps, p.2 <:+ parametersText ps := by
  obtain rfl | ⟨before, p, rfl⟩ := List.eq_nil_or_concat ps
  · exact absurd rfl hne
  · refine ⟨p, by simp, ?_⟩
    rw [parametersText, List.concat_eq_append, List.map_append, List.map_singleton]
    refine List.IsSuffix.trans ?_ (suffix_intercalate_concat _ _ _)
    exact (List.suffix_cons '=' p.2).trans (List.suffix_append _ _)

/-! ### Links -/

/-- The id of a node, without characters that its text in a link gives another meaning. -/
structure WritableNode (id : List Char) : Prop where
  ne_nil : id ≠ []
  /-- Dashes and escapes would be read as other characters, and the marks end a parameter. -/
  plain : ∀ c ∈ ['-', '%', '+', '&', '#'], c ∉ id
  /-- Blanks at the ends are trimmed off. -/
  ends : NoBlankEnds id

/-- A node is selected by its own text. -/
theorem WritableNode.canonicalId_replace {id : List Char} (h : WritableNode id) :
    canonicalId (replace ':' '-' id) = id := by
  have hpercent : '%' ∉ replace ':' '-' id := notMem_replace (by decide) (h.plain '%' (by decide))
  have hplus : '+' ∉ replace ':' '-' id := notMem_replace (by decide) (h.plain '+' (by decide))
  rw [canonicalId, Percent.decode_eq_self hpercent hplus, trim_eq_self (h.ends.replace (by decide)),
    replace_replace (h.plain '-' (by decide))]

/-- A link whose text can be read back. -/
structure Writable (l : Link) : Prop where
  document_ne : l.documentId.toList ≠ []
  /-- The id of the file goes up to the next character that is no letter or digit. -/
  document : ∀ c ∈ l.documentId.toList, c.isAlphanum = true
  /-- A page is a number. -/
  page : ∀ page ∈ l.pageId, page.toList ≠ [] ∧ ∀ c ∈ page.toList, c.isDigit = true
  node : ∀ id ∈ l.nodeId, WritableNode id.toList

/-- A link whose text falls into the same parts again, although not each of them need say something. -/
structure Divisible (l : Link) : Prop where
  document : ∀ c ∈ l.documentId.toList, c.isAlphanum = true
  page : ∀ page ∈ l.pageId, ∀ c ∈ page.toList, c.isDigit = true
  node : ∀ id ∈ l.nodeId, WritableNode id.toList

theorem Writable.divisible {l : Link} (h : Writable l) : Divisible l where
  document := h.document
  page := fun page hpage => (h.page page hpage).2
  node := h.node

/-- The path of the text of a link. -/
def path (l : Link) : List Char :=
  base.toList ++ '/' :: (l.documentId.toList ++ '/' :: writtenName l.documentName)

/-- Whether a character can stand in the path of the text of a link. -/
def isPathChar (c : Char) : Bool := isSlugChar c || c = ':' || c = '/' || c = '.'

/-- The parameters in the text of a link. -/
def writtenParameters (l : Link) : List (List Char × List Char) :=
  (l.nodeId.map fun id => ("node-id".toList, replace ':' '-' id.toList)).toList
    ++ (l.pageId.map fun page => ("page-id".toList, page.toList)).toList

/-- The text of a link is its path and, if there are parameters, its query. -/
theorem toList_build (l : Link) : l.build.toList
    = path l ++ if writtenParameters l = [] then [] else '?' :: parametersText (writtenParameters l) := by
  obtain ⟨document, node, name, page⟩ := l
  have hname : (if ((name.map fun name => nameSlug name.toList).getD []).isEmpty then "Untitled"
      else String.ofList ((name.map fun name => nameSlug name.toList).getD [])).toList
        = writtenName name := by
    simp only [writtenName, List.isEmpty_iff]
    split
    · rfl
    · rw [String.toList_ofList]
  simp only [build, String.toList_append, hname, path, writtenParameters, parametersText]
  cases node <;> cases page <;> simp [spelled]

section Divisible

variable {l : Link} (h : Divisible l)
include h

theorem Divisible.plain_writtenParameters : ∀ p ∈ writtenParameters l, PlainParameter p := by
  intro p hp
  rcases List.mem_append.mp hp with hp | hp
  · obtain ⟨id, hid, rfl⟩ := Option.map_eq_some_iff.mp (Option.mem_toList.mp hp)
    have hnode := h.node id hid
    have hplain : ∀ c ∈ ['&', '#'], c ≠ '-' ∧ c ∈ ['-', '%', '+', '&', '#'] :=
      List.all_iff_forall_prop.mp (by decide)
    have hkey : ∀ c ∈ ['=', '&', '#'], c ∉ "node-id".toList := List.all_iff_forall_prop.mp (by decide)
    exact ⟨hkey, fun c hc => notMem_replace (hplain c hc).1 (hnode.plain c (hplain c hc).2)⟩
  · obtain ⟨page, hpage, rfl⟩ := Option.map_eq_some_iff.mp (Option.mem_toList.mp hp)
    have hslug : ∀ c ∈ page.toList, isSlugChar c = true :=
      fun c hc => isSlugChar_of_isAlphanum (isAlphanum_of_isDigit (h.page page hpage c hc))
    have hplain : ∀ c ∈ ['&', '#'], isSlugChar c = false := List.all_iff_forall_prop.mp (by decide)
    have hkey : ∀ c ∈ ['=', '&', '#'], c ∉ "page-id".toList := List.all_iff_forall_prop.mp (by decide)
    exact ⟨hkey, fun c hc => notMem_of_forall hslug (hplain c hc)⟩

/-- A path has no character that ends it. -/
theorem Divisible.isPathChar_of_mem_path : ∀ c ∈ path l, isPathChar c = true := by
  have hslug : ∀ c, isSlugChar c = true → isPathChar c = true := fun c hc => by simp [isPathChar, hc]
  simp only [path, List.forall_mem_append, List.forall_mem_cons]
  refine ⟨List.all_eq_true.mp (by decide), by decide, fun c hc => ?_, by decide, fun c hc => ?_⟩
  · exact hslug c (isSlugChar_of_isAlphanum (h.document c hc))
  · exact hslug c (isSlugChar_of_mem_writtenName l.documentName c hc)

/-- The text has the path before its first question mark, and no number sign. -/
theorem Divisible.parts_build :
    Parts l.build.toList (path l) (parametersText (writtenParameters l)) := by
  have hnumber : '#' ∉ path l := notMem_of_forall h.isPathChar_of_mem_path rfl
  have hquestion : '?' ∉ path l := notMem_of_forall h.isPathChar_of_mem_path rfl
  refine ⟨l.build.toList, [], .absent ?_, ?_⟩
  · rw [toList_build]
    split
    · rwa [List.append_nil]
    · simp [hnumber, notMem_parametersText h.plain_writtenParameters]
  · rw [toList_build]
    split
    · next hnil =>
      rw [hnil, List.append_nil]
      exact .absent hquestion
    · exact .present hquestion

theorem Divisible.selectedNode?_parametersText :
    (selectedNode? (parametersText (writtenParameters l))).map .ofList = l.nodeId := by
  have hvalues : valuesOf "node-id" (parametersText (writtenParameters l))
      = (l.nodeId.map fun id => replace ':' '-' id.toList).toList := by
    rw [valuesOf, parameters_parametersText h.plain_writtenParameters, writtenParameters]
    cases l.nodeId <;> cases l.pageId <;> rfl
  rw [selectedNode?, hvalues]
  cases hnode : l.nodeId with
  | none => rfl
  | some id =>
    have hid := h.node id hnode
    have hne : (!id.toList.isEmpty) = true := by simpa using hid.ne_nil
    rw [Option.map_some, Option.toList_some, List.map_singleton, hid.canonicalId_replace,
      List.find?_cons_of_pos (p := fun id : List Char => !id.isEmpty) hne, Option.map_some,
      String.ofList_toList]

end Divisible

variable {l : Link} (h : Writable l)
include h

theorem parts_build : Parts l.build.toList (path l) (parametersText (writtenParameters l)) :=
  h.divisible.parts_build

/-- The value of a parameter is not empty, and no blank is at its ends. -/
theorem noBlankEnds_of_mem_writtenParameters :
    ∀ p ∈ writtenParameters l, p.2 ≠ [] ∧ NoBlankEnds p.2 := by
  intro p hp
  rcases List.mem_append.mp hp with hp | hp
  · obtain ⟨id, hid, rfl⟩ := Option.map_eq_some_iff.mp (Option.mem_toList.mp hp)
    have hnode := h.node id hid
    exact ⟨mt replace_eq_nil_iff.mp hnode.ne_nil, hnode.ends.replace (by decide)⟩
  · obtain ⟨page, hpage, rfl⟩ := Option.map_eq_some_iff.mp (Option.mem_toList.mp hp)
    obtain ⟨hne, hdigits⟩ := h.page page hpage
    refine ⟨hne, noBlankEnds_of_forall fun c hc => isBlank_of_isSlugChar ?_⟩
    exact isSlugChar_of_isAlphanum (isAlphanum_of_isDigit (hdigits c hc))

/-- The text begins with a letter, and ends with the last parameter or the name. -/
theorem noBlankEnds_build : NoBlankEnds l.build.toList := by
  obtain ⟨last, hsuffix, hne, hends⟩ : ∃ last, last <:+ l.build.toList ∧ last ≠ [] ∧ NoBlankEnds last := by
    rw [toList_build]
    split
    · refine ⟨writtenName l.documentName, ?_, writtenName_ne_nil _,
        noBlankEnds_of_forall fun c hc =>
          isBlank_of_isSlugChar (isSlugChar_of_mem_writtenName _ c hc)⟩
      exact ⟨base.toList ++ '/' :: (l.documentId.toList ++ ['/']), by simp [path]⟩
    · next hne =>
      obtain ⟨p, hp, hlast⟩ := exists_suffix_parametersText hne
      exact ⟨p.2, hlast.trans ((List.suffix_cons '?' _).trans (List.suffix_append _ _)),
        noBlankEnds_of_mem_writtenParameters h p hp⟩
  constructor
  · intro c hc
    rw [toList_build] at hc
    obtain rfl : 'h' = c := Option.some.inj hc
    decide
  · obtain ⟨before, hbefore⟩ := hsuffix
    rw [← hbefore, List.getLast?_append_of_ne_nil _ hne]
    exact hends.last

/-- The route to the file is the first in the path, whatever the id and the name are. -/
theorem findRoute?_path :
    findRoute? (path l) = some (l.documentId.toList, '/' :: writtenName l.documentName) := by
  set id := l.documentId.toList with hid
  have hroute : route? ("/design/".toList ++ (id ++ '/' :: writtenName l.documentName))
      = some (id, '/' :: writtenName l.documentName) := by
    refine route?_eq_some_iff.mpr ⟨id ++ '/' :: writtenName l.documentName, ⟨?_, ?_⟩, rfl, ?_, ?_⟩
    · exact ⟨"/design/".toList, List.mem_cons_of_mem _ List.mem_cons_self, rfl⟩
    · obtain ⟨c, more, hcons⟩ := List.exists_cons_of_ne_nil h.document_ne
      refine ⟨c, by rw [hid, hcons]; rfl, h.document c (hcons ▸ List.mem_cons_self)⟩
    · exact h.document
    · exact (Parser.stops_cons _ _ _).mpr (by decide)
  -- no slash before that of the route begins one
  calc findRoute? (path l)
      = findRoute? ("/design/".toList ++ (id ++ '/' :: writtenName l.documentName)) := rfl
    _ = (route? ("/design/".toList ++ (id ++ '/' :: writtenName l.documentName))).or
          (findRoute? ("design/".toList ++ (id ++ '/' :: writtenName l.documentName))) := rfl
    _ = some (id, '/' :: writtenName l.documentName) := by rw [hroute, Option.some_or]

theorem selectedNode?_parametersText :
    (selectedNode? (parametersText (writtenParameters l))).map .ofList = l.nodeId :=
  h.divisible.selectedNode?_parametersText

theorem selectedPage?_parametersText :
    (selectedPage? (parametersText (writtenParameters l))).map .ofList = l.pageId := by
  have hvalues : valuesOf "page-id" (parametersText (writtenParameters l))
      = (l.pageId.map String.toList).toList := by
    rw [valuesOf, parameters_parametersText h.divisible.plain_writtenParameters, writtenParameters]
    cases l.nodeId <;> cases l.pageId <;> rfl
  rw [selectedPage?, hvalues]
  cases hpage : l.pageId with
  | none => rfl
  | some page =>
    obtain ⟨hne, hdigits⟩ := h.page page hpage
    have hnumber : (!page.toList.isEmpty && page.toList.all Char.isDigit) = true := by
      simp only [Bool.and_eq_true, Bool.not_eq_true', List.isEmpty_eq_false_iff, List.all_eq_true]
      exact ⟨hne, hdigits⟩
    rw [Option.map_some, Option.toList_some, List.find?_cons_of_pos
        (p := fun id : List Char => !id.isEmpty && id.all Char.isDigit) hnumber, Option.map_some,
      String.ofList_toList]

/--
**A link that is written is read back**, with its name as it is shown; and unchanged, if the name is
one of plain words.
-/
theorem parse_build : parse l.build = .ok { l with documentName := shownName l.documentName }
    ∧ ∀ name, l.documentName = some name → IsPlainName name → parse l.build = .ok l := by
  have hhost : host.toList <:+: l.build.toList := by
    have hbase : host.toList <:+: base.toList := (occurs_iff_isInfix _ _).mp (by decide)
    rw [toList_build, path, List.append_assoc]
    exact hbase.trans (List.prefix_append _ _).isInfix
  have hread : parse l.build = .ok { l with documentName := shownName l.documentName } := by
    rw [parse_of_occurs (trim_eq_self (noBlankEnds_build h)) hhost (parts_build h), findRoute?_path h]
    simp only
    rw [said, name?_writtenName, selectedNode?_parametersText h, selectedPage?_parametersText h,
      String.ofList_toList]
  refine ⟨hread, fun name hname hplain => ?_⟩
  rw [hread, hname, hplain.shownName_eq, ← hname]

omit h in
/-- A file of the name of a route, with a node of marks that end other parts of a link. -/
theorem parse_build_designSystem :
    parse (build ⟨"file", some "I1:2;é:3?=/", some "Design System", some "7"⟩)
      = .ok ⟨"file", some "I1:2;é:3?=/", some "Design System", some "7"⟩ := by
  have hnode : WritableNode "I1:2;é:3?=/".toList := ⟨by decide, List.all_iff_forall_prop.mp (by decide),
    noBlankEnds_of_forall (List.all_iff_forall_prop.mp (by decide))⟩
  have hwritable : Writable ⟨"file", some "I1:2;é:3?=/", some "Design System", some "7"⟩ := by
    refine ⟨by decide, List.all_iff_forall_prop.mp (by decide), ?_, ?_⟩
    · rintro page ⟨⟩
      exact ⟨by decide, List.all_iff_forall_prop.mp (by decide)⟩
    · rintro id ⟨⟩
      exact hnode
  have hword : ∀ word ∈ ["Design".toList, "System".toList], IsPlainWord word := by
    simp only [List.forall_mem_cons, IsPlainWord]
    refine ⟨⟨by decide, ?_⟩, ⟨by decide, ?_⟩, List.forall_mem_nil _⟩
    · exact List.all_iff_forall_prop.mp (by decide)
    · exact List.all_iff_forall_prop.mp (by decide)
  have hname : IsPlainName "Design System" := ⟨_, List.cons_ne_nil _ _, hword, by decide⟩
  exact (parse_build hwritable).2 "Design System" rfl hname

end Link

end Handoff
