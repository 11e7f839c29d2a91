import Handoff.Proofs.Script.Reader
import Handoff.Theme

/-!
# Reading the colors of a theme

The section of a theme that its colors stand in, as a parser: a line that opens
a group and one that closes it, and between these a line for each variant. Names
and hex forms are strings in single quotes, and a variant may also be a name
without quotes. The colors of every theme are read back from its text
(`readColors?_text`).
-/

namespace Handoff.Theme

open Handoff.Parser Handoff.Script

/-! ### The grammar -/

/-- A line is the one expected, after a break. -/
def line (expected : String) : Parser Unit := Parser.text ('\n' :: expected.toList)

/-- The line of a variant with its hex form. -/
def readVariant : Parser (String × String) := do
  line "          "
  let variant ← stringLiteral <|> name
  Parser.text ": ".toList
  let hex ← stringLiteral
  char ','
  return (variant, hex)

/-- The lines of a group. -/
def readGroup : Parser (String × ColorGroup) := do
  line "        "
  let name ← stringLiteral
  Parser.text ": \x7b".toList
  let variants ← many readVariant
  line "        \x7d,"
  return (name, variants)

/-- The groups that stand in the text of a theme. -/
def readColors? (theme : String) : Option (List (String × ColorGroup)) :=
  (colorSection theme.toList).map Prod.fst
where
  colorSection : Parser (List (String × ColorGroup)) := do
    Parser.text ("\n".intercalate head).toList
    line "      colors: \x7b"
    let groups ← many readGroup
    line "      \x7d,"
    return groups

/-! ### Reading what is written -/

theorem line_run (expected : String) (rest : List Char) :
    line expected ('\n' :: (expected.toList ++ rest)) = some ((), rest) :=
  text_append ('\n' :: expected.toList) rest

/-- The key of a variant is read back, whether it is the default one or not. -/
theorem readKey_run (variant : String) (rest : List Char) :
    (stringLiteral <|> name) ((if variant = defaultVariant then variant else quote variant).toList
      ++ (": ".toList ++ rest)) = some (variant, ": ".toList ++ rest) := by
  split
  · next hdefault =>
    have hstops : Stops Json.continuesToken (": ".toList ++ rest) := by
      rw [show ": ".toList = [':', ' '] from rfl, List.cons_append, stops_cons]
      rfl
    have hkey := stringLiteral_or_name_key variant hstops
    rwa [key, if_pos (by rw [hdefault]; decide)] at hkey
  · rw [orElse_apply, stringLiteral_quote]
    rfl

theorem readVariant_run (variant : String × String) (rest : List Char) :
    readVariant (broken [variantLine variant] ++ rest) = some (variant, rest) := by
  obtain ⟨v, hex⟩ := variant
  have htext : broken [variantLine (v, hex)] ++ rest = '\n' :: ("          ".toList
      ++ ((if v = defaultVariant then v else quote v).toList
        ++ (": ".toList ++ ((quote hex).toList ++ ',' :: rest)))) := by
    simp only [broken, variantLine, List.flatMap_cons, List.flatMap_nil, String.toList_append,
      List.cons_append, List.append_assoc, List.nil_append]
    rfl
  rw [htext, readVariant, bind_run (line_run _ _), bind_run (readKey_run v _),
    bind_run (text_append _ _), bind_run (stringLiteral_quote hex _)]
  rfl

theorem readGroup_run (group : String × ColorGroup) (rest : List Char) :
    readGroup (broken (groupLines group) ++ rest) = some (group, rest) := by
  obtain ⟨name, variants⟩ := group
  have htext : broken (groupLines (name, variants)) ++ rest = '\n' :: ("        ".toList
      ++ ((quote name).toList ++ (": \x7b".toList
        ++ (variants.flatMap (fun v => broken [variantLine v])
          ++ '\n' :: ("        \x7d,".toList ++ rest))))) := by
    simp [broken, groupLines, List.flatMap_map]
  have hstops : readVariant ('\n' :: ("        \x7d,".toList ++ rest)) = none := rfl
  have hmany := many_flatMap (fun v => broken [variantLine v]) id variants
    (fun v _ => by simp) (fun v _ => readVariant_run v) hstops
  rw [htext, readGroup, bind_run (line_run _ _), bind_run (stringLiteral_quote name _),
    bind_run (text_append _ _), bind_run hmany, bind_run (line_run _ _), List.map_id]
  rfl

/-- The section of colors comes after the head of a theme. -/
theorem toList_text (t : Theme) : ∃ rest, t.text.toList = ("\n".intercalate head).toList
    ++ '\n' :: ("      colors: \x7b".toList
      ++ (t.colors.flatMap (fun g => broken (groupLines g))
        ++ '\n' :: ("      \x7d,".toList ++ rest))) := by
  refine ⟨broken (sectionLines "fontSize" (t.fontSizes.map fontSizeLine)
    ++ sectionLines "spacing" (t.spacing.map entryLine)
    ++ sectionLines "boxShadow" (t.shadows.map entryLine) ++ tail), ?_⟩
  have hgroups : broken (t.colors.flatMap groupLines)
      = t.colors.flatMap fun g => broken (groupLines g) := List.flatMap_assoc
  have hsection : broken (sectionLines "colors" (t.colors.flatMap groupLines))
      = '\n' :: ("      colors: \x7b".toList ++ (t.colors.flatMap (fun g => broken (groupLines g))
        ++ '\n' :: "      \x7d,".toList)) := by
    rw [sectionLines, broken_append, broken_append, hgroups]
    simp [broken]
  simp only [text, lines, List.append_assoc]
  rw [toList_intercalate_append (by decide), broken_append, hsection]
  simp only [List.append_assoc, List.cons_append]

/-- **The colors of a theme are read back from its text.** -/
theorem readColors?_text (t : Theme) : readColors? t.text = some t.colors := by
  have hstops : ∀ rest, readGroup ('\n' :: ("      \x7d,".toList ++ rest)) = none := fun _ => rfl
  have hmany := fun rest => many_flatMap (fun g => broken (groupLines g)) id t.colors
    (fun g _ => by simp [groupLines]) (fun g _ => readGroup_run g) (hstops rest)
  obtain ⟨rest, htext⟩ := toList_text t
  rw [readColors?, htext, readColors?.colorSection, bind_run (text_append _ _),
    bind_run (line_run _ _), bind_run (hmany rest), bind_run (line_run _ _), List.map_id]
  rfl

end Handoff.Theme
