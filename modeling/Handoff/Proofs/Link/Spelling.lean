import Handoff.Proofs.Link.Grammar
import Handoff.Proofs.Link.Percent

/-!
# Spellings of the id of a node

The id of a node is spelled in many ways: its colons may be dashes, its blanks plus
signs, and everything may be escaped, character by character (`Spells`). All of them
are read as that id (`canonicalNodeId_spelled`). A spelling of the id is one of a text
in which some of its colons are dashes (`exists_encodes_of_spells`); this text is what
is decoded, and since neither a colon nor a dash is a blank it is trimmed as the id is.
-/

namespace Handoff.Link

open Text

/-- An id that is what its spellings are read as: no dash is in it, and no blank at its ends. -/
structure IsCanonical (id : List Char) : Prop where
  dash : '-' ∉ id
  ends : NoBlankEnds id

/-- What a character of an id may be spelled as. -/
inductive SpelledAs : Char → List Char → Prop where
  /-- Any character is spelled as in other texts with escapes. -/
  | written {c : Char} {form : List Char} (h : Percent.WrittenAs c form) : SpelledAs c form
  /-- A colon may be a dash, which may be escaped itself. -/
  | dash {form : String} (h : form ∈ ["-", "%2D", "%2d"]) : SpelledAs ':' form.toList

/-- The id is spelled as `raw`, each character in one of the ways that it may be. -/
def Spells (id raw : List Char) : Prop :=
  ∃ forms, List.Forall₂ SpelledAs id forms ∧ raw = forms.flatten

theorem writtenAs_dash {form : String} (h : form ∈ ["-", "%2D", "%2d"]) :
    Percent.WrittenAs '-' form.toList := by
  simp only [List.mem_cons, List.not_mem_nil, or_false] at h
  rcases h with rfl | rfl | rfl
  · exact .plain (by decide) (by decide)
  · exact .escaped (.cons (by decide) (by decide) .nil)
  · exact .escaped (.cons (by decide) (by decide) .nil)

/-- The spelling of an id is the encoding of a text with dashes for some of its colons. -/
theorem exists_encodes_of_spells {id raw : List Char} (hdash : '-' ∉ id) (h : Spells id raw) :
    ∃ s, Percent.Encodes s raw ∧ replace '-' ':' s = id := by
  obtain ⟨forms, hforms, rfl⟩ := h
  suffices ∃ s, List.Forall₂ Percent.WrittenAs s forms ∧ replace '-' ':' s = id by
    obtain ⟨s, hs, hid⟩ := this
    exact ⟨s, ⟨forms, hs, rfl⟩, hid⟩
  induction hforms with
  | nil => exact ⟨[], .nil, rfl⟩
  | @cons c form id forms hform _ ih =>
    obtain ⟨hc, hid⟩ := not_or.mp (mt List.mem_cons.mpr hdash)
    obtain ⟨s, hs, hreplace⟩ := ih hid
    cases hform with
    | written hwritten =>
      refine ⟨c :: s, .cons hwritten hs, ?_⟩
      rw [← List.singleton_append, replace_append, hreplace, replace_eq_self (by simpa using hc),
        List.singleton_append]
    | dash hmem =>
      refine ⟨'-' :: s, .cons (writtenAs_dash hmem) hs, ?_⟩
      rw [← List.singleton_append, replace_append, hreplace]
      rfl

/-- A spelling is read as the id. -/
theorem canonicalId_of_spells {id raw : List Char} (hid : IsCanonical id) (h : Spells id raw) :
    canonicalId raw = id := by
  obtain ⟨s, hraw, hreplace⟩ := exists_encodes_of_spells hid.dash h
  calc canonicalId raw
      = replace '-' ':' (trim s) := by rw [canonicalId, Percent.decode_of_encodes hraw]
    _ = trim (replace '-' ':' s) := (trim_replace (by decide) (by decide) s).symm
    _ = id := by rw [hreplace, trim_eq_self hid.ends]

/-- Whatever is read as an id has no dash in it and no blank at its ends. -/
theorem isCanonical_canonicalId (raw : List Char) : IsCanonical (canonicalId raw) where
  dash := notMem_replace_self (by decide) _
  ends := (noBlankEnds_trim _).replace (by decide)

/--
**Every spelling of the id of a node is read as the id**, and whatever is read is an id of this kind.
What decoding does to escapes it does to all texts: each of them can be written with escapes, and
each way to write it is decoded to it.
-/
theorem canonicalNodeId_spelled :
    (∀ id raw : String, IsCanonical id.toList → Spells id.toList raw.toList → canonicalNodeId raw = id)
      ∧ (∀ raw : String, IsCanonical (canonicalNodeId raw).toList)
      ∧ ∀ s : List Char, (∃ raw, Percent.Encodes s raw)
        ∧ ∀ raw, Percent.Encodes s raw → Percent.decode raw = s := by
  refine ⟨fun id raw hid h => ?_, fun raw => ?_, fun s => ⟨Percent.exists_encodes s, fun raw h => ?_⟩⟩
  · rw [canonicalNodeId, canonicalId_of_spells hid h, String.ofList_toList]
  · rw [canonicalNodeId, String.toList_ofList]
    exact isCanonical_canonicalId raw.toList
  · exact Percent.decode_of_encodes h

/-- An id with a blank, a percent sign and a letter of two octets, each colon spelled in its own way. -/
theorem canonicalNodeId_spelled_mixed :
    canonicalNodeId "%491-2;%c3%A9+:3%2d4%3a%25" = "I1:2;é :3:4:%" := by
  have hid : IsCanonical "I1:2;é :3:4:%".toList := by
    refine ⟨by decide, ⟨?_, ?_⟩⟩
    · rintro c ⟨⟩
      decide
    · rintro c ⟨⟩
      decide
  have hplain : ∀ c ∈ ['1', '2', ';', ':', '3', '4'], SpelledAs c [c] := by
    intro c hc
    exact .written (.plain (by rintro rfl; simp at hc) (by rintro rfl; simp at hc))
  have hletter : SpelledAs 'I' "%49".toList := .written (.escaped (.cons (by decide) (by decide) .nil))
  have haccent : SpelledAs 'é' "%c3%A9".toList :=
    .written (.escaped (.cons (by decide) (by decide) (.cons (by decide) (by decide) .nil)))
  have hcolon : SpelledAs ':' "%3a".toList := .written (.escaped (.cons (by decide) (by decide) .nil))
  have hpercent : SpelledAs '%' "%25".toList := .written (.escaped (.cons (by decide) (by decide) .nil))
  have hforms : List.Forall₂ SpelledAs "I1:2;é :3:4:%".toList
      ["%49".toList, ['1'], "-".toList, ['2'], [';'], "%c3%A9".toList, ['+'], [':'], ['3'],
        "%2d".toList, ['4'], "%3a".toList, "%25".toList] :=
    .cons hletter (.cons (hplain '1' (by decide)) (.cons (.dash (by decide))
      (.cons (hplain '2' (by decide)) (.cons (hplain ';' (by decide)) (.cons haccent
        (.cons (.written .plus) (.cons (hplain ':' (by decide)) (.cons (hplain '3' (by decide))
          (.cons (.dash (by decide)) (.cons (hplain '4' (by decide)) (.cons hcolon
            (.cons hpercent .nil))))))))))))
  exact canonicalNodeId_spelled.1 _ _ hid ⟨_, hforms, by decide⟩

end Handoff.Link
