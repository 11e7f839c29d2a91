import Handoff.Proofs.Markup.ReadBack
import Handoff.Proofs.Script.Lines

/-!
# The lines of an element

Whatever texts and values an element has, none of its lines has a line feed in it
(`Markup.unbroken_of_mem_lines`): a text with one is written as an expression in which
it is escaped. So the line feeds in the source are those between the lines
(`Markup.linesOf_source`). An element that starts further to the right has the same
lines with as many blanks in front of each (`Markup.lines_add`).
-/

namespace Handoff

open Handoff.Script

namespace Markup

/-! ### Texts without line feeds -/

/-- The text has no line feed. It may have a carriage return, as the value of an attribute does. -/
def Unbroken (s : String) : Prop := '\n' ∉ s.toList

instance (s : String) : Decidable (Unbroken s) := inferInstanceAs (Decidable (¬ _))

@[simp] theorem unbroken_append {s t : String} : Unbroken (s ++ t) ↔ Unbroken s ∧ Unbroken t := by
  simp only [Unbroken, String.toList_append, List.mem_append, not_or]

theorem unbroken_of_isWord {s : String} (h : IsWord s) : Unbroken s :=
  (isLine_of_forall (by decide) (List.all_eq_true.mp h.2)).1

theorem unbroken_blanks (count : Nat) : Unbroken (blanks count) := by
  simp [Unbroken, blanks]

/-- A string in double quotes has no line feed, whatever characters it has. -/
theorem unbroken_quote (s : String) : Unbroken (Json.quote s) := by
  have hdigits : ∀ n < 16, Text.lowerHexDigit n ≠ '\n' := by decide
  have hescape : ∀ c, '\n' ∉ Json.escape c := by
    intro c
    unfold Json.escape
    split_ifs with h₁ h₂ h₃ h₄ h₅ h₆ h₇ h₈
    · decide
    · decide
    · decide
    · decide
    · decide
    · decide
    · decide
    · -- The code of a control character has two digits, the first of which is zero or one.
      have hlt : c.toNat < 32 := h₈
      have hfirst := hdigits (c.toNat / 16) (by omega)
      have hsecond := hdigits (c.toNat % 16) (by omega)
      simp [hfirst.symm, hsecond.symm]
    · rw [List.mem_singleton]
      exact Ne.symm h₃
  simp [Unbroken, Json.quote, hescape]

theorem unbroken_braced {s : String} (h : Unbroken s) : Unbroken (braced s) := by
  rw [braced, unbroken_append, unbroken_append]
  exact ⟨⟨by decide, h⟩, by decide⟩

/-- A text with a line feed is not written as it is. -/
theorem unbroken_attributeText (s : String) : Unbroken (attributeText s) := by
  unfold attributeText
  split
  · next hplain =>
    have hs : Unbroken s := fun hmem => by simpa using List.all_eq_true.mp hplain '\n' hmem
    rw [unbroken_append, unbroken_append]
    exact ⟨⟨by decide, hs⟩, by decide⟩
  · exact unbroken_braced (unbroken_quote s)

theorem unbroken_contentText (s : String) : Unbroken (contentText s) := by
  unfold contentText
  split
  · next hplain =>
    intro hmem
    simp only [isPlainContent, Bool.and_eq_true, Bool.not_eq_true', List.any_eq_false] at hplain
    exact hplain.1.1 '\n' hmem rfl
  · exact unbroken_braced (unbroken_quote s)

theorem unbroken_attributeSource {a : Attribute} (ha : IsWord a.name) :
    Unbroken (attributeSource a) := by
  obtain ⟨name, value⟩ := a
  have hname : Unbroken name := unbroken_of_isWord ha
  simp only [attributeSource, unbroken_append]
  refine ⟨⟨⟨by decide, hname⟩, by decide⟩, ?_⟩
  cases value with
  | text s => exact unbroken_attributeText s
  | expression v => exact unbroken_braced (isLine_literal v).1

theorem unbroken_attributesSource {attributes : List Attribute}
    (h : ∀ a ∈ attributes, IsWord a.name) : Unbroken (attributesSource attributes) := by
  rw [Unbroken, Element.toList_attributesSource, List.mem_flatMap]
  rintro ⟨a, ha, hmem⟩
  exact unbroken_attributeSource (h a ha) hmem

/-! ### Lines -/

theorem linesOfAll_eq_flatMap (indent : Nat) (ms : List Markup) :
    linesOfAll indent ms = ms.flatMap (lines indent) := by
  induction ms with
  | nil => rfl
  | cons m ms ih => simp [linesOfAll, ih]

theorem unbroken_startTag {tag : String} {attributes : List Attribute} (htag : IsWord tag)
    (hnames : ∀ a ∈ attributes, IsWord a.name) (indent : Nat) :
    Unbroken (blanks indent ++ "<" ++ tag ++ attributesSource attributes) := by
  simp only [unbroken_append]
  exact ⟨⟨⟨unbroken_blanks indent, by decide⟩, unbroken_of_isWord htag⟩,
    unbroken_attributesSource hnames⟩

/-- No line of an element has a line feed in it. -/
theorem unbroken_of_mem_lines {m : Markup} (hm : m.WellNamed) (indent : Nat) :
    ∀ l ∈ m.lines indent, Unbroken l := by
  induction hm generalizing indent with
  | closed htag hnames =>
    rw [lines, List.forall_mem_singleton, unbroken_append]
    exact ⟨unbroken_startTag htag hnames indent, by decide⟩
  | text htag hnames _ =>
    rw [lines, List.forall_mem_singleton, unbroken_append, unbroken_append, unbroken_append,
      unbroken_append, unbroken_append]
    exact ⟨⟨⟨⟨⟨unbroken_startTag htag hnames indent, by decide⟩, unbroken_contentText _⟩, by decide⟩,
      unbroken_of_isWord htag⟩, by decide⟩
  | @parent tag _ _ htag hnames _ ih =>
    have hend : Unbroken (blanks indent ++ "</" ++ tag ++ ">") := by
      simp only [unbroken_append]
      exact ⟨⟨⟨unbroken_blanks indent, by decide⟩, unbroken_of_isWord htag⟩, by decide⟩
    rw [lines, linesOfAll_eq_flatMap, List.forall_mem_append, List.forall_mem_cons,
      List.forall_mem_flatMap, List.forall_mem_singleton, unbroken_append]
    exact ⟨⟨⟨unbroken_startTag htag hnames indent, by decide⟩, fun m hm => ih m hm (indent + 2)⟩,
      hend⟩

/-- What stands between the line feeds of a text. -/
def linesOf (s : String) : List String := (s.toList.splitOn '\n').map String.ofList

/-- The line feeds in the source of an element are those between its lines. -/
theorem linesOf_source {m : Markup} (hm : m.WellNamed) (indent : Nat) :
    linesOf (m.source indent) = m.lines indent := by
  have hlines := splitOn_intercalate (Element.lines_ne_nil indent m) (unbroken_of_mem_lines hm indent)
  have hself : String.ofList ∘ String.toList = id := funext fun _ => String.ofList_toList
  rw [linesOf, source, hlines, List.map_map, hself, List.map_id]

/-! ### Columns -/

theorem blanks_add (j k : Nat) : blanks (j + k) = blanks j ++ blanks k := by
  rw [blanks, List.replicate_add, String.ofList_append]
  rfl

mutual
/-- An element that starts further to the right has the same lines after blanks. -/
theorem lines_add (j k : Nat) : (m : Markup) → m.lines (j + k) = (m.lines k).map (blanks j ++ ·)
  | closed tag attributes => by
    simp only [lines, blanks_add, String.append_assoc, List.map_cons, List.map_nil]
  | text tag attributes content => by
    simp only [lines, blanks_add, String.append_assoc, List.map_cons, List.map_nil]
  | parent tag attributes children => by
    simp only [lines, blanks_add, String.append_assoc, List.map_cons, List.map_nil, List.map_append,
      Nat.add_assoc j k 2, linesOfAll_add j (k + 2) children]
/-- `lines_add` on elements one after the other. -/
theorem linesOfAll_add (j k : Nat) :
    (ms : List Markup) → linesOfAll (j + k) ms = (linesOfAll k ms).map (blanks j ++ ·)
  | [] => rfl
  | m :: ms => by rw [linesOfAll, linesOfAll, lines_add j k m, linesOfAll_add j k ms, List.map_append]
end

end Markup

end Handoff
