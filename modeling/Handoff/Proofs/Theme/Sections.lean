import Handoff.Proofs.Script.Literal
import Handoff.Proofs.Theme.Reader

/-!
# Reading a theme

A whole theme as a parser: its head, a section for each kind of token, and its
tail. A section is a line that opens it, its entries, and a line that closes it
(`sectionOf`), so that there is one lemma for all four (`sectionOf_run`). Every
theme is read back from its text (`read?_text`).
-/

namespace Handoff.Theme

open Handoff.Parser Handoff.Script

variable {α : Type}

/-! ### The grammar -/

/-- The line of a font size with its line height. -/
def readFontSize : Parser (String × String × String) := do
  line "        "
  let name ← stringLiteral
  Parser.text ": ".toList
  match ← expression with
  | .array [.string size, .object [("lineHeight", .string height)]] =>
    char ','
    return (name, size, height)
  | _ => failure

/-- The line of an entry whose key and value are strings. -/
def readEntry : Parser (String × String) := do
  line "        "
  let key ← stringLiteral
  Parser.text ": ".toList
  let value ← stringLiteral
  char ','
  return (key, value)

/-- A section with its entries. -/
def sectionOf (name : String) (entry : Parser α) : Parser (List α) := do
  line ("      " ++ name ++ ": \x7b")
  let entries ← many entry
  line "      \x7d,"
  return entries

/-- A theme. -/
def theme : Parser Theme := do
  Parser.text ("\n".intercalate head).toList
  let colors ← sectionOf "colors" readGroup
  let fontSizes ← sectionOf "fontSize" readFontSize
  let spacing ← sectionOf "spacing" readEntry
  let shadows ← sectionOf "boxShadow" readEntry
  Parser.text (broken tail)
  return { colors, fontSizes, spacing, shadows }

/-- The theme that a text is. -/
def read? (text : String) : Option Theme := theme.run text.toList

/-! ### Reading what is written -/

theorem readFontSize_run (entry : String × String × String) (rest : List Char) :
    readFontSize (broken [fontSizeLine entry] ++ rest) = some (entry, rest) := by
  obtain ⟨name, size, height⟩ := entry
  have htext : broken [fontSizeLine (name, size, height)] ++ rest = '\n' :: ("        ".toList
      ++ ((quote name).toList ++ (": ".toList
        ++ ((literal (.array [.string size, .object [("lineHeight", .string height)]])).toList
          ++ ',' :: rest)))) := by
    simp only [broken, fontSizeLine, List.flatMap_cons, List.flatMap_nil, String.toList_append,
      List.cons_append, List.append_assoc, List.nil_append]
    rfl
  have hstops : Stops Json.continuesToken (',' :: rest) := (stops_cons _ _ _).mpr rfl
  rw [htext, readFontSize, bind_run (line_run _ _), bind_run (stringLiteral_quote name _),
    bind_run (text_append _ _), bind_run (expression_literal _ hstops)]
  rfl

theorem readEntry_run (entry : String × String) (rest : List Char) :
    readEntry (broken [entryLine entry] ++ rest) = some (entry, rest) := by
  obtain ⟨key, value⟩ := entry
  have htext : broken [entryLine (key, value)] ++ rest = '\n' :: ("        ".toList
      ++ ((quote key).toList ++ (": ".toList ++ ((quote value).toList ++ ',' :: rest)))) := by
    simp [broken, entryLine]
  rw [htext, readEntry, bind_run (line_run _ _), bind_run (stringLiteral_quote key _),
    bind_run (text_append _ _), bind_run (stringLiteral_quote value _)]
  rfl

/-- A section is read back when each of its entries is, and none begins like its last line. -/
theorem sectionOf_run (name : String) {entry : Parser α} (linesOf : α → List String)
    (hne : ∀ a, linesOf a ≠ [])
    (hread : ∀ a rest, entry (broken (linesOf a) ++ rest) = some (a, rest))
    (hstops : ∀ rest, entry ('\n' :: ("      \x7d,".toList ++ rest)) = none)
    (entries : List α) (rest : List Char) :
    sectionOf name entry (broken (sectionLines name (entries.flatMap linesOf)) ++ rest)
      = some (entries, rest) := by
  have htext : broken (sectionLines name (entries.flatMap linesOf)) ++ rest
      = '\n' :: (("      " ++ name ++ ": \x7b").toList
        ++ (entries.flatMap (fun a => broken (linesOf a)) ++ '\n' :: ("      \x7d,".toList ++ rest))) := by
    have hentries : broken (entries.flatMap linesOf) = entries.flatMap fun a => broken (linesOf a) :=
      List.flatMap_assoc
    rw [sectionLines, broken_append, broken_append, hentries]
    simp [broken]
  have hbroken : ∀ a ∈ entries, broken (linesOf a) ≠ [] := by
    intro a _
    obtain ⟨l, lines, hlines⟩ := List.exists_cons_of_ne_nil (hne a)
    rw [hlines, broken_cons]
    exact List.cons_ne_nil _ _
  have hmany := many_flatMap (fun a => broken (linesOf a)) id entries hbroken
    (fun a _ => hread a) (hstops rest)
  rw [htext, sectionOf, bind_run (line_run _ _), bind_run hmany, bind_run (line_run _ _), List.map_id]
  rfl

/-- **A theme is read back from its text.** -/
theorem read?_text (t : Theme) : read? t.text = some t := by
  have htext : t.text.toList = ("\n".intercalate head).toList
      ++ (broken (sectionLines "colors" (t.colors.flatMap groupLines))
        ++ (broken (sectionLines "fontSize" (t.fontSizes.flatMap fun e => [fontSizeLine e]))
          ++ (broken (sectionLines "spacing" (t.spacing.flatMap fun e => [entryLine e]))
            ++ (broken (sectionLines "boxShadow" (t.shadows.flatMap fun e => [entryLine e]))
              ++ (broken tail ++ []))))) := by
    simp only [text, lines, List.append_assoc, ← List.map_eq_flatMap]
    rw [toList_intercalate_append (by decide)]
    simp only [broken_append, List.append_nil]
  have hcolors := sectionOf_run "colors" groupLines (by simp [groupLines])
    readGroup_run (fun _ => rfl) t.colors
  have hfontSizes := sectionOf_run "fontSize" (fun e => [fontSizeLine e]) (by simp)
    readFontSize_run (fun _ => rfl) t.fontSizes
  have hentries := fun name => sectionOf_run name (fun e => [entryLine e]) (by simp)
    readEntry_run fun _ => rfl
  rw [read?, run, htext, theme, bind_run (text_append _ _), bind_run (hcolors _),
    bind_run (hfontSizes _), bind_run (hentries "spacing" t.spacing _),
    bind_run (hentries "boxShadow" t.shadows _), bind_run (text_append _ _)]
  rfl

end Handoff.Theme
