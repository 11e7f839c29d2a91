import Handoff.Proofs.Link.Grammar
import Mathlib.Data.Bool.AllAny

/-!
# Links on other hosts

A link is recognised by a mention of the host of designs, wherever it stands. So of
the links on another host those are refused in which neither the name of the host
nor anything behind it mentions that host, and all others are read as if they stood
on the host of designs, the name of the other host being a part of the path
(`parse_foreign_address`). What carries this is that the start of a link has no route
in it, so that one start is as good as another (`parse_congr_start`).
-/

namespace Handoff.Link

open Text

/-- The address of something on a host. -/
def address (name rest : String) : String := "https://" ++ name ++ "/" ++ rest

/-- A text mentions the host of designs. -/
def Mentions (s : String) : Prop := host.toList <:+: s.toList

/-- The name is neither that of the host of designs nor that of a host below it. -/
def IsForeign (name : String) : Prop := name ≠ host ∧ ¬('.' :: host.toList) <:+ name.toList

instance (name : String) : Decidable (IsForeign name) := inferInstanceAs (Decidable (_ ∧ _))

theorem noBlankEnds_host : NoBlankEnds host.toList :=
  noBlankEnds_of_forall (List.all_iff_forall_prop.mp (by decide))

/-- A host that is not mentioned in a name is not that of the name. -/
theorem isForeign_of_not_mentions {name : String} (h : ¬Mentions name) : IsForeign name := by
  constructor
  · rintro rfl
    exact h (List.infix_refl _)
  · intro hsuffix
    exact h ((List.suffix_cons '.' _).trans hsuffix).isInfix

theorem toList_address (name rest : String) : (address name rest).toList
    = "https://".toList ++ (name.toList ++ '/' :: rest.toList) := by
  simp [address]

/-- A mention of the host has no slash in it, so it stands in the name or behind it. -/
theorem mentions_address_iff {name rest : String} :
    Mentions (address name rest) ↔ Mentions name ∨ Mentions rest := by
  have hslash : '/' ∉ host.toList := by decide
  have hscheme : ¬host.toList <:+: "https:/".toList := by
    rw [← occurs_iff_isInfix]
    decide
  have hsplit : "https://".toList = "https:/".toList ++ ['/'] := by decide
  rw [Mentions, toList_address, hsplit, List.append_assoc, List.singleton_append,
    isInfix_append_cons_iff hslash, or_iff_right hscheme, isInfix_append_cons_iff hslash]
  rfl

/-! ### The start of a link -/

/-- The start of a link: nothing of it ends a path, and no blank is at its ends. -/
structure IsStart (start : List Char) : Prop where
  ne_nil : start ≠ []
  plain : ∀ c ∈ ['#', '?'], c ∉ start
  ends : NoBlankEnds start

/-- A link that mentions the host is read by the routes that its path has behind the start. -/
theorem parse_of_isStart {start rest : List Char} {reference : String} (hstart : IsStart start)
    (hreference : reference.toList = start ++ rest) (hhost : Mentions reference) :
    parse reference =
      match findRoute? (start ++ before '?' (before '#' (rest.rdropWhile isBlank))) with
      | none => .error .missingDocumentId
      | some (id, after) => .ok (said id after (behind '?' (before '#' (rest.rdropWhile isBlank)))) := by
  have htext : trim reference.toList = start ++ rest.rdropWhile isBlank := by
    rw [hreference, trim_append hstart.ne_nil hstart.ends]
  have hmention : host.toList <:+: start ++ rest.rdropWhile isBlank := by
    rw [← htext, isInfix_trim_iff (by decide) noBlankEnds_host]
    exact hhost
  have hnumber : '#' ∉ start := hstart.plain '#' (by decide)
  have hquestion : '?' ∉ start := hstart.plain '?' (by decide)
  have hparts : Parts (start ++ rest.rdropWhile isBlank)
      (start ++ before '?' (before '#' (rest.rdropWhile isBlank)))
      (behind '?' (before '#' (rest.rdropWhile isBlank))) := by
    rw [parts_iff, before_append hnumber, before_append hquestion, behind_append hquestion]
    exact ⟨rfl, rfl⟩
  exact parse_of_occurs htext hmention hparts

/-- Links with the same rest behind starts without routes say the same. -/
theorem parse_congr_start {start start' rest : List Char} {reference reference' : String}
    (hstart : IsStart start) (hstart' : IsStart start') (hreference : reference.toList = start ++ rest)
    (hreference' : reference'.toList = start' ++ rest) (hhost : Mentions reference)
    (hhost' : Mentions reference')
    (hroute : ∀ path, findRoute? (start ++ path) = findRoute? (start' ++ path)) :
    parse reference = parse reference' := by
  rw [parse_of_isStart hstart hreference hhost, parse_of_isStart hstart' hreference' hhost', hroute]

theorem isStart_scheme : IsStart "https://".toList :=
  ⟨by decide, List.all_iff_forall_prop.mp (by decide),
    noBlankEnds_of_forall (List.all_iff_forall_prop.mp (by decide))⟩

theorem isStart_host : IsStart "https://figma.com/".toList :=
  ⟨by decide, List.all_iff_forall_prop.mp (by decide),
    noBlankEnds_of_forall (List.all_iff_forall_prop.mp (by decide))⟩

/-! ### Foreign hosts -/

/-- An address that mentions the host is not refused for its host. -/
theorem parse_address_ne {name rest : String} (h : Mentions (address name rest)) :
    parse (address name rest) ≠ .error .unrecognizedHost := by
  rw [parse_of_isStart isStart_scheme (toList_address name rest) h]
  split
  · exact fun heq => nomatch heq
  · exact fun heq => nomatch heq

/-- An address that does not mention the host is refused for its host. -/
theorem parse_address_eq {name rest : String} (h : ¬Mentions (address name rest)) :
    parse (address name rest) = .error .unrecognizedHost := by
  have hne : trim (address name rest).toList ≠ [] := by
    rw [toList_address, trim_append isStart_scheme.ne_nil isStart_scheme.ends]
    exact List.append_ne_nil_of_left_ne_nil isStart_scheme.ne_nil _
  have hmention : ¬host.toList <:+: trim (address name rest).toList := by
    rw [isInfix_trim_iff (by decide) noBlankEnds_host]
    exact h
  rw [parse_of_not_occurs rfl hmention, if_neg hne]

/--
**A link on another host is refused unless the host of designs is mentioned**, in the name of the
other host or anywhere behind it; and if it is, the link is read as on the host of designs, where the
name of the other host is the first part of the path.
-/
theorem parse_foreign_address (name rest : String) :
    (parse (address name rest) = .error .unrecognizedHost
        ↔ IsForeign name ∧ ¬Mentions name ∧ ¬Mentions rest)
      ∧ (Mentions name ∨ Mentions rest →
        parse (address name rest) = parse (address host (name ++ "/" ++ rest))) := by
  constructor
  · constructor
    · intro hrefused
      have hnone : ¬Mentions (address name rest) := fun h => parse_address_ne h hrefused
      rw [mentions_address_iff, not_or] at hnone
      exact ⟨isForeign_of_not_mentions hnone.1, hnone⟩
    · rintro ⟨-, hname, hrest⟩
      exact parse_address_eq (mt mentions_address_iff.mp (not_or.mpr ⟨hname, hrest⟩))
  · intro hmention
    have hhost : Mentions (address host (name ++ "/" ++ rest)) :=
      mentions_address_iff.mpr (.inl (List.infix_refl _))
    have htext : (address host (name ++ "/" ++ rest)).toList
        = "https://figma.com/".toList ++ (name.toList ++ '/' :: rest.toList) := by
      simp [address, host]
    -- Neither start has a slash that begins a route, so both leave the one before the name.
    exact parse_congr_start isStart_scheme isStart_host (toList_address name rest) htext
      (mentions_address_iff.mpr hmention) hhost fun _ => rfl

/-- A link on a foreign host is read where its path mentions the host of designs. -/
theorem not_refused_examplePath : ¬∀ name rest : String, name ≠ "" →
    (∀ c ∈ name.toList, c.isAlphanum = true ∨ c = '.' ∨ c = '-') → IsForeign name →
      parse (address name rest) = .error .unrecognizedHost := by
  intro h
  have hrefused := h "example.com" "figma.com/file/abc" (by decide)
    (List.all_iff_forall_prop.mp (by decide)) (by decide)
  have hread : parse (address "example.com" "figma.com/file/abc") = .ok ⟨"abc", none, none, none⟩ := by
    decide +kernel
  rw [hread] at hrefused
  cases hrefused

end Handoff.Link
