import Handoff.Proofs.Link.RoundTrip

/-!
# Links pasted into a text

Links stand in a text one after the other, with text between them that begins with
a blank or a comma (`Pasted`). The nodes found in the text are those that the links
select, in order, and reading the links one by one gives the same
(`extractIds_pasted`).

A node is found after each `node-id=`. That does not begin in one part of the text
and end in the next: a parameter ends before a character that no parameter has, and
what stands between two links is followed by a path, which has no `=`. So what comes
before a parameter is passed over (`spelledIds_append`), and each link adds its own
node to those found in the rest (`Pastable.spelledIds_build`).
-/

namespace Handoff.Link

open Text Handoff.Parser

/-! ### Searching for nodes -/

/-- What the id of a node stands after. -/
def nodeKey : List Char := "node-id=".toList

theorem not_nodeKey_infix_nil : ¬nodeKey <:+: [] :=
  fun h => List.cons_ne_nil _ _ (List.infix_nil.mp h)

/-- Whether a character can stand in the parameter that selects a node. -/
def isParameterChar (c : Char) : Bool := isNodeIdChar c || c = '='

theorem isBlank_of_isNodeIdChar {c : Char} (h : isNodeIdChar c = true) : isBlank c = false := by
  simp only [isNodeIdChar, Bool.or_eq_true, decide_eq_true_eq] at h
  rcases h with (((h | rfl) | rfl) | rfl) | rfl
  · exact isBlank_of_isSlugChar (isSlugChar_of_isAlphanum h)
  · decide
  · decide
  · decide
  · decide

theorem spelledIds_cons_of_not_isPrefix {c : Char} {s : List Char} (h : ¬nodeKey <+: c :: s) :
    spelledIds (c :: s) = spelledIds s := by
  have hnone : after? "node-id=".toList (c :: s) = none :=
    if_neg fun hprefix => h (List.isPrefixOf_iff_prefix.mp hprefix)
  rw [spelledIds, hnone]

/-- A text that selects no node is passed over, if what follows it does not go on with a parameter. -/
theorem spelledIds_append {s rest : List Char} (hs : ¬nodeKey <:+: s)
    (hrest : Stops isParameterChar rest) : spelledIds (s ++ rest) = spelledIds rest := by
  have hkey : ∀ c ∈ nodeKey, isParameterChar c = true := List.all_eq_true.mp (by decide)
  have hnext : ∀ c ∈ rest.head?, c ∉ nodeKey := by
    intro c hc hmem
    exact Bool.false_ne_true ((hrest c hc).symm.trans (hkey c hmem))
  induction s with
  | nil => rfl
  | cons c s ih =>
    have hstart : ¬nodeKey <+: c :: (s ++ rest) :=
      fun h => hs ((isPrefix_append_iff_left (s := c :: s) hnext).mp h).isInfix
    rw [List.cons_append, spelledIds_cons_of_not_isPrefix hstart]
    exact ih fun h => hs (List.infix_cons h)

/-- A node is found where it stands, with the whole of its id. -/
theorem spelledIds_nodeKey {id rest : List Char} (hid : ∀ c ∈ id, isNodeIdChar c = true)
    (hrest : Stops isParameterChar rest) :
    spelledIds (nodeKey ++ (id ++ rest)) = id :: spelledIds rest := by
  have hstops : Stops isNodeIdChar rest := fun c hc => (Bool.or_eq_false_iff.mp (hrest c hc)).1
  have hinside : ¬nodeKey <:+: "ode-id=".toList ++ id := by
    rw [isInfix_append_iff_left (c := '=') rfl (notMem_of_forall hid rfl), ← occurs_iff_isInfix]
    decide
  have htail : spelledIds ("ode-id=".toList ++ (id ++ rest)) = spelledIds rest := by
    rw [← List.append_assoc]
    exact spelledIds_append hinside hrest
  have hfound : after? "node-id=".toList ('n' :: ("ode-id=".toList ++ (id ++ rest)))
      = some (id ++ rest) := after?_eq_some_iff.mpr rfl
  change spelledIds ('n' :: ("ode-id=".toList ++ (id ++ rest))) = id :: spelledIds rest
  rw [spelledIds, hfound, htail]
  exact congrArg (· :: spelledIds rest) (takeWhile_stops hid hstops).1

/-! ### Links -/

/-- A link that can be pasted into a text: its node has no characters that stop a search. -/
structure Pastable (l : Link) : Prop where
  document_ne : l.documentId.toList ≠ []
  document : ∀ c ∈ l.documentId.toList, c.isAlphanum = true
  page : ∀ page ∈ l.pageId, ∀ c ∈ page.toList, c.isDigit = true
  node_ne : ∀ id ∈ l.nodeId, id.toList ≠ []
  node : ∀ id ∈ l.nodeId, ∀ c ∈ id.toList, c.isAlphanum = true ∨ c = ':' ∨ c = ';'

/-- The node of a link as the link spells it. -/
def spelledNode (l : Link) : List (List Char) :=
  (l.nodeId.map fun id => replace ':' '-' id.toList).toList

/-- The page in the text of a link, behind the mark that divides it from what stands before. -/
def pageText (mark : Char) (l : Link) : List Char :=
  (l.pageId.map fun page => mark :: ("page-id=".toList ++ page.toList)).getD []

theorem spelled_node (id : List Char) : spelled ("node-id".toList, id) = nodeKey ++ id := rfl

theorem spelled_page (page : List Char) : spelled ("page-id".toList, page) = "page-id=".toList ++ page :=
  rfl

theorem parametersText_cons (p : List Char × List Char) (ps : List (List Char × List Char)) :
    parametersText (p :: ps) = spelled p ++ if ps = [] then [] else '&' :: parametersText ps := by
  split
  · next h => rw [h, parametersText, List.map_singleton, List.intercalate_singleton, List.append_nil]
  · next h =>
    have hne : ps.map spelled ≠ [] := mt List.map_eq_nil_iff.mp h
    rw [parametersText, List.map_cons, List.intercalate_cons_of_ne_nil hne, List.append_assoc]
    rfl

theorem toList_build_of_none {l : Link} (h : l.nodeId = none) :
    l.build.toList = path l ++ pageText '?' l := by
  rw [toList_build, writtenParameters, pageText, h]
  cases l.pageId with
  | none => rfl
  | some page =>
    simp only [Option.map_none, Option.toList_none, Option.map_some, Option.toList_some, List.nil_append,
      parametersText_cons, spelled_page, reduceCtorEq, if_true, if_false, List.append_nil, Option.getD_some]

theorem toList_build_of_some {l : Link} {id : String} (h : l.nodeId = some id) : l.build.toList
    = path l ++ '?' :: (nodeKey ++ (replace ':' '-' id.toList ++ pageText '&' l)) := by
  rw [toList_build, writtenParameters, pageText, h]
  cases l.pageId with
  | none =>
    simp only [Option.map_none, Option.toList_none, Option.map_some, Option.toList_some, List.append_nil,
      parametersText_cons, spelled_node, reduceCtorEq, if_true, if_false, Option.getD_none]
  | some page =>
    simp only [Option.map_some, Option.toList_some, List.singleton_append, List.append_nil, List.append_assoc,
      parametersText_cons, spelled_node, spelled_page, reduceCtorEq, if_true, if_false, Option.getD_some]

namespace Pastable

variable {l : Link} (h : Pastable l)
include h

theorem divisible : Divisible l where
  document := h.document
  page := h.page
  node := by
    intro id hid
    refine ⟨h.node_ne id hid, fun c hc hmem => ?_, noBlankEnds_of_forall fun c hc => ?_⟩
    · have hplain : ∀ c ∈ ['-', '%', '+', '&', '#'], ¬(c.isAlphanum = true ∨ c = ':' ∨ c = ';') :=
        List.all_iff_forall_prop.mp (by decide)
      exact hplain c hc (h.node id hid c hmem)
    · rcases h.node id hid c hc with hc | rfl | rfl
      · exact isBlank_of_isSlugChar (isSlugChar_of_isAlphanum hc)
      · decide
      · decide

theorem isNodeIdChar_of_mem {id : String} (hid : l.nodeId = some id) :
    ∀ c ∈ replace ':' '-' id.toList, isNodeIdChar c = true := by
  intro c hc
  obtain ⟨d, hd, rfl⟩ := List.mem_map.mp hc
  rcases h.node id hid d hd with hd | rfl | rfl
  · rw [if_neg (ne_of_isAlphanum hd rfl), isNodeIdChar, hd]
    rfl
  · decide
  · decide

omit h in
theorem stops_pageText {mark : Char} (hmark : mark ∈ ['?', '&']) {rest : List Char}
    (hrest : Stops isParameterChar rest) : Stops isParameterChar (pageText mark l ++ rest) := by
  have hstops : ∀ mark ∈ ['?', '&'], isParameterChar mark = false :=
    List.all_iff_forall_prop.mp (by decide)
  rw [pageText]
  cases l.pageId with
  | none => exact hrest
  | some page => exact (stops_cons _ _ _).mpr (hstops mark hmark)

/-- No node is found in a page. -/
theorem spelledIds_pageText {mark : Char} (hmark : mark ∈ ['?', '&']) {rest : List Char}
    (hrest : Stops isParameterChar rest) : spelledIds (pageText mark l ++ rest) = spelledIds rest := by
  refine spelledIds_append ?_ hrest
  rw [pageText]
  cases hpage : l.pageId with
  | none => exact not_nodeKey_infix_nil
  | some page =>
    have hequals : '=' ∉ page.toList := fun hmem => absurd (h.page page hpage '=' hmem) (by decide)
    have hstart : ∀ mark ∈ ['?', '&'], ¬occurs nodeKey (mark :: "page-id=".toList) = true :=
      List.all_iff_forall_prop.mp (by decide)
    change ¬nodeKey <:+: (mark :: "page-id=".toList) ++ page.toList
    rw [isInfix_append_iff_left (c := '=') rfl hequals, ← occurs_iff_isInfix]
    exact hstart mark hmark

/-- **A link adds its node** to the nodes found in what follows it. -/
theorem spelledIds_build {before rest : List Char} (hbefore : ¬nodeKey <:+: before)
    (hrest : Stops isParameterChar rest) :
    spelledIds (before ++ (l.build.toList ++ rest)) = spelledNode l ++ spelledIds rest := by
  have hequals : '=' ∉ path l := notMem_of_forall h.divisible.isPathChar_of_mem_path rfl
  have hpath : ¬nodeKey <:+: before ++ path l := by
    rwa [isInfix_append_iff_left (c := '=') rfl hequals]
  cases hnode : l.nodeId with
  | none =>
    have hstops : Stops isParameterChar (pageText '?' l ++ rest) := stops_pageText (by decide) hrest
    rw [toList_build_of_none hnode, spelledNode, hnode, List.append_assoc, ← List.append_assoc before,
      spelledIds_append hpath hstops, h.spelledIds_pageText (by decide) hrest]
    rfl
  | some id =>
    have hstops : Stops isParameterChar (pageText '&' l ++ rest) := stops_pageText (by decide) hrest
    have hmark : ∀ s, Stops isParameterChar ('?' :: s) := fun s => (stops_cons _ _ _).mpr (by decide)
    have hkey : ∀ s, ¬nodeKey <+: '?' :: s := fun s hprefix => by
      obtain ⟨rest, heq⟩ := hprefix
      cases heq
    rw [toList_build_of_some hnode, spelledNode, hnode, List.append_assoc, ← List.append_assoc before,
      List.cons_append, spelledIds_append hpath (hmark _), spelledIds_cons_of_not_isPrefix (hkey _),
      List.append_assoc, List.append_assoc, spelledIds_nodeKey (h.isNodeIdChar_of_mem hnode) hstops,
      h.spelledIds_pageText (by decide) hrest]
    rfl

theorem isBlank_of_mem_writtenParameters {p : List Char × List Char} (hp : p ∈ writtenParameters l) :
    ∀ c ∈ spelled p, isBlank c = false := by
  have hnames : ∀ c ∈ "node-id=page-id=".toList, isBlank c = false := List.all_iff_forall_prop.mp (by decide)
  rw [show "node-id=page-id=".toList = nodeKey ++ "page-id=".toList from rfl,
    List.forall_mem_append] at hnames
  rcases List.mem_append.mp hp with hp | hp
  · obtain ⟨id, hid, rfl⟩ := Option.map_eq_some_iff.mp (Option.mem_toList.mp hp)
    rw [spelled_node, List.forall_mem_append]
    exact ⟨hnames.1, fun c hc => isBlank_of_isNodeIdChar (h.isNodeIdChar_of_mem hid c hc)⟩
  · obtain ⟨page, hpage, rfl⟩ := Option.map_eq_some_iff.mp (Option.mem_toList.mp hp)
    rw [spelled_page, List.forall_mem_append]
    refine ⟨hnames.2, fun c hc => isBlank_of_isSlugChar ?_⟩
    exact isSlugChar_of_isAlphanum (isAlphanum_of_isDigit (h.page page hpage c hc))

/-- No blank is in the text of a link. -/
theorem isBlank_of_mem_build : ∀ c ∈ l.build.toList, isBlank c = false := by
  have hpath : ∀ c ∈ path l, isBlank c = false := by
    intro c hc
    have hchar := h.divisible.isPathChar_of_mem_path c hc
    simp only [isPathChar, Bool.or_eq_true, decide_eq_true_eq] at hchar
    rcases hchar with ((hslug | rfl) | rfl) | rfl
    · exact isBlank_of_isSlugChar hslug
    · decide
    · decide
    · decide
  rw [toList_build]
  split
  · rwa [List.append_nil]
  · rw [List.forall_mem_append, List.forall_mem_cons]
    refine ⟨hpath, by decide, forall_mem_intercalate (by decide) fun part hpart => ?_⟩
    obtain ⟨p, hp, rfl⟩ := List.mem_map.mp hpart
    exact h.isBlank_of_mem_writtenParameters hp

/-- A link is read, and the node that it selects is its own. -/
theorem exists_parse_build : ∃ r, parse l.build = .ok r ∧ r.nodeId = l.nodeId := by
  have hhost : host.toList <:+: l.build.toList := by
    have hbase : host.toList <:+: base.toList := (occurs_iff_isInfix _ _).mp (by decide)
    rw [toList_build, path, List.append_assoc]
    exact hbase.trans (List.prefix_append _ _).isInfix
  -- The path does not depend on the page, which alone may say nothing.
  have hroute : findRoute? (path l)
      = some (l.documentId.toList, '/' :: writtenName l.documentName) :=
    findRoute?_path (l := { l with pageId := none }) ⟨h.document_ne, h.document, by simp, h.divisible.node⟩
  have hends := noBlankEnds_of_forall h.isBlank_of_mem_build
  refine ⟨said l.documentId.toList ('/' :: writtenName l.documentName)
    (parametersText (writtenParameters l)), ?_, h.divisible.selectedNode?_parametersText⟩
  rw [parse_of_occurs (trim_eq_self hends) hhost h.divisible.parts_build, hroute]

end Pastable

/-! ### Texts -/

/-- What may stand between two links. -/
structure IsSeparator (text : String) : Prop where
  /-- It begins with a blank or a comma, so that the link before it has an end. -/
  start : ∃ c ∈ text.toList.head?, isBlank c = true ∨ c = ','
  /-- It selects no node itself. -/
  key : ¬nodeKey <:+: text.toList

/-- The text has the links in order, with separators between them. -/
inductive Pasted : List Link → String → Prop where
  /-- Without links there is no text. -/
  | none : Pasted [] ""
  /-- One link stands alone. -/
  | one (l : Link) : Pasted [l] l.build
  /-- A link stands before others. -/
  | more (l : Link) {separator : String} (hseparator : IsSeparator separator) {next : Link}
      {links : List Link} {text : String} (h : Pasted (next :: links) text) :
      Pasted (l :: next :: links) (l.build ++ separator ++ text)

theorem IsSeparator.stops {separator : String} (h : IsSeparator separator) (rest : List Char) :
    Stops isParameterChar (separator.toList ++ rest) := by
  obtain ⟨c, hc, hstart⟩ := h.start
  intro d hd
  rw [List.head?_append, Option.mem_def.mp hc, Option.some_or, Option.mem_some_iff] at hd
  obtain rfl := hd
  rcases hstart with hblank | rfl
  · refine Bool.eq_false_iff.mpr fun hchar => ?_
    rcases Bool.or_eq_true_iff.mp hchar with hid | hequals
    · exact Bool.false_ne_true ((isBlank_of_isNodeIdChar hid).symm.trans hblank)
    · rw [of_decide_eq_true hequals] at hblank
      exact absurd hblank (by decide)
  · decide

/-- The nodes found in a text are those of its links as these spell them. -/
theorem Pasted.spelledIds_eq {links : List Link} {text : String} (htext : Pasted links text)
    (h : ∀ l ∈ links, Pastable l) {before : List Char} (hbefore : ¬nodeKey <:+: before) :
    spelledIds (before ++ text.toList) = links.flatMap spelledNode := by
  have hnil : Stops isParameterChar [] := stops_nil _
  induction htext generalizing before with
  | none => exact spelledIds_append hbefore hnil
  | one l =>
    have hfound := (h l List.mem_cons_self).spelledIds_build hbefore hnil
    rwa [List.append_nil] at hfound
  | more l hseparator _ ih =>
    obtain ⟨hl, hlinks⟩ := List.forall_mem_cons.mp h
    rw [String.toList_append, String.toList_append, List.append_assoc,
      hl.spelledIds_build hbefore (hseparator.stops _), ih hlinks hseparator.key]
    rfl

/-- A spelled node is found under its own id. -/
theorem canonicalIds_spelledNodes {links : List Link} (h : ∀ l ∈ links, Pastable l) :
    ((((links.flatMap spelledNode).map canonicalId).filter fun id => !id.isEmpty).map .ofList)
      = links.filterMap (·.nodeId) := by
  induction links with
  | nil => rfl
  | cons l links ih =>
    obtain ⟨hl, hlinks⟩ := List.forall_mem_cons.mp h
    rw [List.flatMap_cons, List.map_append, List.filter_append, List.map_append, ih hlinks]
    cases hnode : l.nodeId with
    | none =>
      rw [spelledNode, hnode, List.filterMap_cons_none hnode]
      rfl
    | some id =>
      have hid := hl.divisible.node id hnode
      have hkept : (!id.toList.isEmpty) = true := by simpa using hid.ne_nil
      rw [spelledNode, hnode, Option.map_some, Option.toList_some, List.map_singleton,
        hid.canonicalId_replace, List.filter_singleton, hkept, List.filterMap_cons_some hnode]
      exact congrArg (· :: links.filterMap (·.nodeId)) String.ofList_toList

/-- Links that are read one by one select their own nodes. -/
theorem exists_read {links : List Link} (h : ∀ l ∈ links, Pastable l) :
    ∃ read, List.Forall₂ (fun l r => parse l.build = .ok r) links read
      ∧ read.filterMap (·.nodeId) = links.filterMap (·.nodeId) := by
  induction links with
  | nil => exact ⟨[], .nil, rfl⟩
  | cons l links ih =>
    obtain ⟨hl, hlinks⟩ := List.forall_mem_cons.mp h
    obtain ⟨r, hr, hnode⟩ := hl.exists_parse_build
    obtain ⟨read, hread, hnodes⟩ := ih hlinks
    refine ⟨r :: read, .cons hr hread, ?_⟩
    rw [List.filterMap_cons, List.filterMap_cons, hnode, hnodes]

/--
**The nodes found in a text of links are those that the links select**, in order, which are also those
that are read from the links one by one.
-/
theorem extractIds_pasted {links : List Link} {text : String} (htext : Pasted links text)
    (h : ∀ l ∈ links, Pastable l) :
    extractIds text = links.filterMap (·.nodeId)
      ∧ ∃ read, List.Forall₂ (fun l r => parse l.build = .ok r) links read
        ∧ extractIds text = read.filterMap (·.nodeId) := by
  have hfound : extractIds text = links.filterMap (·.nodeId) := by
    rw [extractIds, ← List.nil_append text.toList, htext.spelledIds_eq h not_nodeKey_infix_nil,
      canonicalIds_spelledNodes h]
  obtain ⟨read, hread, hnodes⟩ := exists_read h
  rw [hfound]
  exact ⟨rfl, read, hread, hnodes.symm⟩

/-- Three links, one of them without a node, with a name and a text between them that are almost keys. -/
theorem extractIds_pasted_threeLinks :
    let first : Link := ⟨"AbC123", some "1:2", some "node-id", some "7"⟩
    let second : Link := ⟨"K3y9", none, none, some "42"⟩
    let third : Link := ⟨"file", some "I3:4;5:6", some "Landing page", none⟩
    let text := first.build ++ ", then node-id" ++ (second.build ++ "\n" ++ third.build)
    extractIds text = ["1:2", "I3:4;5:6"]
      ∧ ∃ read, List.Forall₂ (fun l r => parse l.build = .ok r) [first, second, third] read
        ∧ extractIds text = read.filterMap (·.nodeId) := by
  intro first second third text
  have hcomma : IsSeparator ", then node-id" := by
    refine ⟨⟨',', rfl, .inr rfl⟩, ?_⟩
    rw [← occurs_iff_isInfix]
    decide
  have hline : IsSeparator "\n" := by
    refine ⟨⟨'\n', rfl, .inl (by decide)⟩, ?_⟩
    rw [← occurs_iff_isInfix]
    decide
  have htext : Pasted [first, second, third] text := .more first hcomma (.more second hline (.one third))
  refine extractIds_pasted htext ?_
  simp only [List.forall_mem_cons]
  refine ⟨⟨by decide, ?_, ?_, by decide, ?_⟩, ⟨by decide, ?_, ?_, by decide, ?_⟩,
    ⟨by decide, ?_, ?_, by decide, ?_⟩, List.forall_mem_nil _⟩
  all_goals simp only [first, second, third, Option.mem_some_iff, forall_eq', Option.not_mem_none,
    IsEmpty.forall_iff, implies_true, ← List.all_iff_forall_prop]
  all_goals decide

end Handoff.Link
