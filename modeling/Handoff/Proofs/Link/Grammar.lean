import Handoff.Link
import Handoff.Proofs.Text.Blank
import Handoff.Proofs.Text.Search

/-!
# What a link says

The grammar of links, without the searches that read them. The path of a link ends
at its first question mark, the query goes from there to the first number sign
(`Parts`). The path has routes with a letter or digit after them (`RouteAt`), of
which the leftmost counts (`LeftmostRoute`); the id of the file is the longest run
of letters and digits there, and its name stands in the next part of the path
(`ShownName`). Of the parameters of the query (`ParametersOf`) the first that says
something counts (`IsFirst`).

For each part there is a lemma that its reader gives what the grammar says and
nothing else, and `parse_exact` puts them together.
-/

namespace Handoff.Link

open Text

/-! ### The grammar -/

/-- The text has the path and the query given, before any number sign. -/
def Parts (text path query : List Char) : Prop :=
  ∃ link fragment, SplitsAt '#' text link fragment ∧ SplitsAt '?' link path query

/-- What stands before the id of a file. -/
def routes : List (List Char) := ["/file/".toList, "/design/".toList]

/-- A route stands in the path after `before`, and an id at the start of `rest` follows it. -/
structure RouteAt (path before rest : List Char) : Prop where
  /-- The route and what surrounds it. -/
  route : ∃ route ∈ routes, path = before ++ (route ++ rest)
  /-- A letter or digit follows. -/
  follows : ∃ c ∈ rest.head?, isIdChar c = true

/-- No route that an id follows stands further left. -/
structure LeftmostRoute (path before rest : List Char) : Prop extends RouteAt path before rest where
  /-- Every other comes later. -/
  leftmost : ∀ before' rest', RouteAt path before' rest' → before.length ≤ before'.length

/-- The name in what follows the id: the next part of the path, unless it is blank. -/
inductive ShownName : List Char → List Char → Prop where
  /-- The part is not empty, and so is the name that it spells not blank. -/
  | part {rest part more name : List Char} (hpart : SplitsAt '/' rest part more) (hne : part ≠ [])
      (hname : name = replace '-' ' ' (Percent.decode part)) (hblank : ∃ c ∈ name, isBlank c = false) :
      ShownName ('/' :: rest) name

/-- The parameters of a query: its parts that are not empty, each with the value after the first `=`. -/
def ParametersOf (query : List Char) (ps : List (List Char × List Char)) : Prop :=
  ∃ parts, query = ['&'].intercalate parts ∧ (∀ part ∈ parts, '&' ∉ part)
    ∧ List.Forall₂ (fun part p => SplitsAt '=' part p.1 p.2) (parts.filter (· ≠ [])) ps

/-- The first in a list with a property. -/
def IsFirst {α : Type} (P : α → Prop) (xs : List α) (x : α) : Prop :=
  P x ∧ ∃ before after, xs = before ++ x :: after ∧ ∀ y ∈ before, ¬P y

/-- A parameter that selects a node. -/
def SelectsNode (p : List Char × List Char) : Prop :=
  p.1 = "node-id".toList ∧ canonicalId p.2 ≠ []

/-- A parameter that names a page by a number. -/
def NamesPage (p : List Char × List Char) : Prop :=
  p.1 = "page-id".toList ∧ p.2 ≠ [] ∧ ∀ c ∈ p.2, c.isDigit = true

/-- A path and a query say what the link does. -/
structure Says (path query : List Char) (l : Link) : Prop where
  /-- The file and its name, at the leftmost route. -/
  file : ∃ before rest after, LeftmostRoute path before rest
    ∧ LongestRun isIdChar rest l.documentId.toList after
    ∧ ∀ name, l.documentName = some name ↔ ShownName after name.toList
  /-- The node and the page, by the first parameters that say them. -/
  query : ∃ ps, ParametersOf query ps
    ∧ (∀ id, l.nodeId = some id ↔ ∃ p, IsFirst SelectsNode ps p ∧ id.toList = canonicalId p.2)
    ∧ ∀ page, l.pageId = some page ↔ ∃ p, IsFirst NamesPage ps p ∧ page.toList = p.2

/-- The report on an outcome. -/
inductive Reports : Except LinkError Link → LinkReport → Prop where
  /-- An error is told. -/
  | error (e : LinkError) : Reports (.error e) ⟨false, none, some e, []⟩
  /-- A link that selects a node is given as it is. -/
  | selection {l : Link} (h : l.nodeId ≠ none) : Reports (.ok l) ⟨true, some l, none, []⟩
  /-- A link that selects nothing is given with a warning. -/
  | noSelection {l : Link} (h : l.nodeId = none) :
      Reports (.ok l) ⟨true, some l, none, [noSelectionWarning]⟩

/-! ### Routes -/

/-- What follows a route at the start of a text. -/
theorem or_after?_eq_some_iff {s rest : List Char} :
    (after? "/file/".toList s).or (after? "/design/".toList s) = some rest
      ↔ ∃ route ∈ routes, s = route ++ rest := by
  rw [Option.or_eq_some_iff, after?_eq_some_iff, after?_eq_some_iff]
  constructor
  · rintro (h | ⟨-, h⟩)
    · exact ⟨_, List.mem_cons_self, h⟩
    · exact ⟨_, List.mem_cons_of_mem _ List.mem_cons_self, h⟩
  · rintro ⟨route, hroute, rfl⟩
    rcases List.mem_pair.mp hroute with rfl | rfl
    · exact .inl rfl
    -- the two routes differ in their second character
    · exact .inr ⟨rfl, rfl⟩

theorem routeAt_nil_iff {s rest : List Char} : RouteAt s [] rest ↔
    (after? "/file/".toList s).or (after? "/design/".toList s) = some rest
      ∧ ∃ c ∈ rest.head?, isIdChar c = true := by
  rw [or_after?_eq_some_iff]
  exact ⟨fun h => ⟨h.route, h.follows⟩, fun h => ⟨h.1, h.2⟩⟩

/-- A route further on in a text is a route in what remains of it. -/
theorem routeAt_cons_iff {c : Char} {path before rest : List Char} :
    RouteAt (c :: path) (c :: before) rest ↔ RouteAt path before rest := by
  constructor
  · rintro ⟨⟨route, hroute, h⟩, hc⟩
    exact ⟨⟨route, hroute, (List.cons.inj h).2⟩, hc⟩
  · rintro ⟨⟨route, hroute, rfl⟩, hc⟩
    exact ⟨⟨route, hroute, rfl⟩, hc⟩

theorem not_routeAt_nil (before rest : List Char) : ¬RouteAt [] before rest := by
  rintro ⟨⟨route, hroute, h⟩, -⟩
  obtain ⟨-, hnil⟩ := List.append_eq_nil_iff.mp h.symm
  rcases List.mem_pair.mp hroute with rfl | rfl <;> exact List.cons_ne_nil _ _ hnil

/-- What follows routes that stand at one place is the same. -/
theorem RouteAt.rest_eq {path before before' rest rest' : List Char} (h : RouteAt path before rest)
    (h' : RouteAt path before' rest') (hlength : before.length = before'.length) : rest = rest' := by
  obtain ⟨route, hroute, hpath⟩ := h.route
  obtain ⟨route', hroute', hpath'⟩ := h'.route
  obtain ⟨-, heq⟩ := List.append_inj (hpath.symm.trans hpath') hlength
  have hrest := or_after?_eq_some_iff.mpr ⟨route, hroute, Eq.refl (route ++ rest)⟩
  have hrest' := or_after?_eq_some_iff.mpr ⟨route', hroute', heq⟩
  exact Option.some.inj (hrest.symm.trans hrest')

theorem route?_eq_some_iff {s id after : List Char} : route? s = some (id, after) ↔
    ∃ rest, RouteAt s [] rest ∧ LongestRun isIdChar rest id after := by
  rw [route?, Option.bind_eq_some_iff]
  refine exists_congr fun rest => ?_
  rw [routeAt_nil_iff, longestRun_iff, and_assoc]
  refine and_congr_right fun _ => ?_
  rw [Option.ite_none_left_eq_some, List.isEmpty_iff, takeWhile_eq_nil_iff, not_not, Option.some.injEq,
    Prod.mk.injEq, eq_comm, eq_comm (b := after)]

theorem route?_eq_none_iff {s : List Char} : route? s = none ↔ ∀ rest, ¬RouteAt s [] rest := by
  constructor
  · intro h rest hrest
    have hsome := route?_eq_some_iff.mpr ⟨rest, hrest, longestRun_takeWhile isIdChar rest⟩
    rw [h] at hsome
    cases hsome
  · intro h
    rw [Option.eq_none_iff_forall_ne_some]
    rintro ⟨id, after⟩ hsome
    obtain ⟨rest, hrest, -⟩ := route?_eq_some_iff.mp hsome
    exact h rest hrest

/-- No route is found where there is none. -/
theorem findRoute?_eq_none_iff {path : List Char} :
    findRoute? path = none ↔ ∀ before rest, ¬RouteAt path before rest := by
  induction path with
  | nil => simp [findRoute?, not_routeAt_nil]
  | cons c path ih =>
    rw [findRoute?, Option.or_eq_none_iff, route?_eq_none_iff, ih]
    constructor
    · rintro ⟨hstart, hmore⟩ (_ | ⟨d, before⟩) rest h
      · exact hstart rest h
      · obtain rfl : c = d := by
          obtain ⟨route, -, hpath⟩ := h.route
          exact (List.cons.inj hpath).1
        exact hmore before rest (routeAt_cons_iff.mp h)
    · intro h
      exact ⟨h [], fun before rest hmore => h (c :: before) rest (routeAt_cons_iff.mpr hmore)⟩

/-- The route that is found is the leftmost, and the id after it goes as far as it can. -/
theorem exists_leftmostRoute {path id after : List Char} (h : findRoute? path = some (id, after)) :
    ∃ before rest, LeftmostRoute path before rest ∧ LongestRun isIdChar rest id after := by
  induction path with
  | nil => cases h
  | cons c path ih =>
    rw [findRoute?, Option.or_eq_some_iff, route?_eq_some_iff, route?_eq_none_iff] at h
    rcases h with ⟨rest, hroute, hid⟩ | ⟨hnone, hmore⟩
    · exact ⟨[], rest, ⟨hroute, fun _ _ _ => Nat.zero_le _⟩, hid⟩
    · obtain ⟨before, rest, hleft, hid⟩ := ih hmore
      refine ⟨c :: before, rest, ⟨routeAt_cons_iff.mpr hleft.toRouteAt, ?_⟩, hid⟩
      rintro (_ | ⟨d, before'⟩) rest' h'
      · exact absurd h' (hnone rest')
      · obtain rfl : c = d := by
          obtain ⟨route, -, hpath⟩ := h'.route
          exact (List.cons.inj hpath).1
        exact Nat.succ_le_succ (hleft.leftmost before' rest' (routeAt_cons_iff.mp h'))

/-- There is one leftmost route only, and it is found. -/
theorem findRoute?_eq_some_iff {path id after : List Char} : findRoute? path = some (id, after) ↔
    ∃ before rest, LeftmostRoute path before rest ∧ LongestRun isIdChar rest id after := by
  refine ⟨exists_leftmostRoute, ?_⟩
  rintro ⟨before, rest, hleft, hid⟩
  cases hfind : findRoute? path with
  | none => exact absurd hleft.toRouteAt (findRoute?_eq_none_iff.mp hfind before rest)
  | some found =>
    obtain ⟨before', rest', hleft', hid'⟩ := exists_leftmostRoute hfind
    have hlength : before.length = before'.length :=
      Nat.le_antisymm (hleft.leftmost _ _ hleft'.toRouteAt) (hleft'.leftmost _ _ hleft.toRouteAt)
    have hrest := hleft.toRouteAt.rest_eq hleft'.toRouteAt hlength
    rw [longestRun_iff] at hid hid'
    rw [hid.1, hid.2, hrest, ← hid'.1, ← hid'.2]

/-! ### The name -/

/-- The name is the one that the path shows. -/
theorem name?_eq_some_iff {after name : List Char} :
    name? after = some name ↔ ShownName after name := by
  constructor
  · intro h
    unfold name? at h
    split at h
    · next rest =>
      simp only [Bool.or_eq_true, List.isEmpty_iff, Option.ite_none_left_eq_some, not_or] at h
      obtain ⟨⟨hpart, hblank⟩, hname⟩ := h
      rw [← Option.some.inj hname]
      exact .part (splitsAt_before_behind '/' rest) hpart rfl (trim_ne_nil_iff.mp hblank)
    · cases h
  · rintro ⟨hpart, hne, hname, hblank⟩
    obtain ⟨rfl, -⟩ := splitsAt_iff.mp hpart
    rw [hname] at hblank ⊢
    simp only [name?, Bool.or_eq_true, List.isEmpty_iff]
    rw [if_neg (not_or.mpr ⟨hne, trim_ne_nil_iff.mpr hblank⟩)]

/-! ### Parameters -/

/-- A query has its parameters and no others. -/
theorem parametersOf_iff {query : List Char} {ps : List (List Char × List Char)} :
    ParametersOf query ps ↔ ps = parameters query := by
  have hparameters : parameters query = ((query.splitOn '&').filter (· ≠ [])).map fun part =>
      (before '=' part, behind '=' part) := by
    have hkept : ∀ part : List Char, (!part.isEmpty) = decide (part ≠ []) := by
      intro part
      cases part <;> simp
    simp only [parameters, hkept]
  rw [hparameters]
  constructor
  · rintro ⟨parts, rfl, hparts, hps⟩
    rw [filter_splitOn hparts, ← forall₂_splitsAt_iff]
    exact hps
  · intro h
    refine ⟨query.splitOn '&', (List.intercalate_splitOn '&').symm, ?_, forall₂_splitsAt_iff.mpr h⟩
    exact fun part hpart => notMem_of_mem_splitOn hpart

/-- What is found in a list is the first with the property. -/
theorem find?_eq_some_iff_isFirst {α : Type} {P : α → Prop} {q : α → Bool}
    (hq : ∀ x, q x = true ↔ P x) {xs : List α} {x : α} : xs.find? q = some x ↔ IsFirst P xs x := by
  simp only [List.find?_eq_some_iff_append, hq, IsFirst, Bool.not_eq_true', ← Bool.not_eq_true]

/-- The first value with a property among those of a name, by the parameters themselves. -/
theorem find?_valuesOf (name : String) (query : List Char) (q : List Char → Bool) :
    (valuesOf name query).find? q
      = ((parameters query).find? fun p => decide (p.1 = name.toList) && q p.2).map (·.2) := by
  rw [valuesOf, List.find?_map, List.find?_filter]
  simp only [Function.comp_apply, decide_eq_true_iff, Bool.decide_and, Bool.decide_eq_true]

/-- The node is the one that the first parameter that selects a node selects. -/
theorem selectedNode?_eq_some_iff {query id : List Char} : selectedNode? query = some id ↔
    ∃ p, IsFirst SelectsNode (parameters query) p ∧ id = canonicalId p.2 := by
  have hselects : ∀ p : List Char × List Char,
      (decide (p.1 = "node-id".toList) && !(canonicalId p.2).isEmpty) = true ↔ SelectsNode p := by
    intro p
    rw [SelectsNode, Bool.and_eq_true, decide_eq_true_iff, Bool.not_eq_true', List.isEmpty_eq_false_iff]
  rw [selectedNode?, List.find?_map, find?_valuesOf, Option.map_map, Option.map_eq_some_iff]
  simp only [Function.comp_apply, find?_eq_some_iff_isFirst hselects, eq_comm]

/-- The page is the one that the first parameter that names a page names. -/
theorem selectedPage?_eq_some_iff {query page : List Char} : selectedPage? query = some page ↔
    ∃ p, IsFirst NamesPage (parameters query) p ∧ page = p.2 := by
  have hnames : ∀ p : List Char × List Char,
      (decide (p.1 = "page-id".toList) && (!p.2.isEmpty && p.2.all Char.isDigit)) = true
        ↔ NamesPage p := by
    intro p
    rw [NamesPage, Bool.and_eq_true, decide_eq_true_iff, Bool.and_eq_true, Bool.not_eq_true',
      List.isEmpty_eq_false_iff, List.all_eq_true]
  rw [selectedPage?, find?_valuesOf, Option.map_eq_some_iff]
  simp only [find?_eq_some_iff_isFirst hnames, eq_comm]

/-! ### The whole text -/

theorem parts_iff {text path query : List Char} : Parts text path query ↔
    path = before '?' (before '#' text) ∧ query = behind '?' (before '#' text) := by
  constructor
  · rintro ⟨link, fragment, htext, hlink⟩
    rw [(splitsAt_iff.mp htext).1] at hlink
    exact splitsAt_iff.mp hlink
  · rintro ⟨rfl, rfl⟩
    exact ⟨_, _, splitsAt_before_behind '#' text, splitsAt_before_behind '?' _⟩

/-- What the query and what stands at a route say. -/
def said (id after query : List Char) : Link where
  documentId := .ofList id
  nodeId := (selectedNode? query).map .ofList
  documentName := (name? after).map .ofList
  pageId := (selectedPage? query).map .ofList

theorem map_ofList_eq_some_iff {o : Option (List Char)} {s : String} :
    o.map String.ofList = some s ↔ o = some s.toList := by
  cases o with
  | none => simp
  | some t =>
    rw [Option.map_some, Option.some.injEq, Option.some.injEq]
    constructor
    · rintro rfl
      exact String.toList_ofList.symm
    · rintro rfl
      exact String.ofList_toList

/-- A path and a query say one thing only. -/
theorem says_iff {path query : List Char} {l : Link} : Says path query l ↔
    ∃ id after, findRoute? path = some (id, after) ∧ l = said id after query := by
  constructor
  · rintro ⟨⟨before, rest, after, hleft, hid, hname⟩, ps, hps, hnode, hpage⟩
    obtain rfl := parametersOf_iff.mp hps
    refine ⟨_, after, findRoute?_eq_some_iff.mpr ⟨before, rest, hleft, hid⟩, ?_⟩
    have hnode' : l.nodeId = (selectedNode? query).map .ofList := by
      refine Option.ext fun id => ?_
      rw [hnode, map_ofList_eq_some_iff, selectedNode?_eq_some_iff]
    have hname' : l.documentName = (name? after).map .ofList := by
      refine Option.ext fun name => ?_
      rw [hname, map_ofList_eq_some_iff, name?_eq_some_iff]
    have hpage' : l.pageId = (selectedPage? query).map .ofList := by
      refine Option.ext fun page => ?_
      rw [hpage, map_ofList_eq_some_iff, selectedPage?_eq_some_iff]
    rw [said, String.ofList_toList, ← hnode', ← hname', ← hpage']
  · rintro ⟨id, after, hfind, rfl⟩
    obtain ⟨before, rest, hleft, hid⟩ := findRoute?_eq_some_iff.mp hfind
    refine ⟨⟨before, rest, after, hleft, ?_, fun name => ?_⟩, _, parametersOf_iff.mpr rfl,
      fun id => ?_, fun page => ?_⟩
    · rwa [said, String.toList_ofList]
    · rw [said, map_ofList_eq_some_iff, name?_eq_some_iff]
    · rw [said, map_ofList_eq_some_iff, selectedNode?_eq_some_iff]
    · rw [said, map_ofList_eq_some_iff, selectedPage?_eq_some_iff]

variable {reference : String} {text path query : List Char}

theorem ne_nil_of_host_isInfix (h : host.toList <:+: text) : text ≠ [] := by
  rintro rfl
  exact List.cons_ne_nil _ _ (List.infix_nil.mp h)

/-- A text that mentions the host is read at its route. -/
theorem parse_of_occurs (htext : trim reference.toList = text) (hhost : host.toList <:+: text)
    (hparts : Parts text path query) : parse reference =
      match findRoute? path with
      | none => .error .missingDocumentId
      | some (id, after) => .ok (said id after query) := by
  have hne := ne_nil_of_host_isInfix hhost
  obtain ⟨rfl, rfl⟩ := parts_iff.mp hparts
  rw [parse, htext]
  simp only
  rw [if_neg (mt List.isEmpty_iff.mp hne), if_neg (by simp [(occurs_iff_isInfix _ _).mpr hhost])]
  rfl

/-- A text without the host is refused, and blanks alone are no text. -/
theorem parse_of_not_occurs (htext : trim reference.toList = text) (hhost : ¬host.toList <:+: text) :
    parse reference = .error (if text = [] then .empty else .unrecognizedHost) := by
  rw [parse, htext]
  simp only [List.isEmpty_iff]
  split
  · rfl
  · rw [if_pos (by simpa using mt (occurs_iff_isInfix _ _).mp hhost)]

theorem reports_check (reference : String) : Reports (parse reference) (check reference) := by
  rw [check]
  cases parse reference with
  | error e => exact .error e
  | ok l =>
    simp only [Option.isNone_iff_eq_none]
    split
    · next h => exact .noSelection h
    · next h => exact .selection h

/--
**Links are read by their grammar**: each error is given exactly where the grammar has it, a link
exactly where the path and the query say it, and the report tells what was given.
-/
theorem parse_exact (reference : String) :
    Reports (parse reference) (check reference)
      ∧ ∃ text path query, Trimmed reference.toList text ∧ Parts text path query
        ∧ (parse reference = .error .empty ↔ text = [])
        ∧ (parse reference = .error .unrecognizedHost ↔ text ≠ [] ∧ ¬host.toList <:+: text)
        ∧ (parse reference = .error .missingDocumentId ↔
            host.toList <:+: text ∧ ∀ before rest, ¬RouteAt path before rest)
        ∧ ∀ l, parse reference = .ok l ↔ host.toList <:+: text ∧ Says path query l := by
  refine ⟨reports_check reference, trim reference.toList, _, _, trimmed_trim _,
    parts_iff.mpr ⟨rfl, rfl⟩, ?_⟩
  simp only [says_iff, ← findRoute?_eq_none_iff]
  by_cases hhost : host.toList <:+: trim reference.toList
  · have hne := ne_nil_of_host_isInfix hhost
    rw [parse_of_occurs rfl hhost (parts_iff.mpr ⟨rfl, rfl⟩)]
    cases findRoute? (before '?' (before '#' (trim reference.toList))) with
    | none => simp [hhost, hne]
    | some found =>
      obtain ⟨id, after⟩ := found
      simp [hhost, hne, eq_comm]
  · rw [parse_of_not_occurs rfl hhost]
    simp only [hhost, false_and, not_false_eq_true, and_true, iff_false]
    split
    · next hempty => simp [hempty]
    · next hne => simp [hne]

end Handoff.Link
