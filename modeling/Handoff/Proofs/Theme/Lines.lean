import Handoff.Proofs.Script.Lines
import Handoff.Proofs.Theme.Sections

/-!
# The lines of a theme

A theme is its frame with one line for each entry, and every line can be read on
its own. Strings in quotes never hold a break of a line (`isLine_quote`), so
whatever names and colors there are, the breaks in the text are those between its
lines (`splitOn_text`). The line of an entry gives back its strings, and a group
of colors takes the line that opens it, a line for each variant and the line that
closes it (`themeText_reads_by_line`).

Numbers are spelled with digits and a few letters and signs, all of which stand
for themselves in quotes (`quote_quantity`).
-/

namespace Handoff

namespace Script

/-! ### Characters that stand for themselves -/

/-- The characters that are escaped in quotes. -/
def escaped : List Char := ['\\', '\'', '\n', '\r', '\t']

theorem escape_of_notMem {c : Char} (h : c ∉ escaped) : escape c = [c] := by
  simp only [escaped, List.mem_cons, List.not_mem_nil, or_false, not_or] at h
  obtain ⟨h₁, h₂, h₃, h₄, h₅⟩ := h
  rw [escape, if_neg h₁, if_neg h₂, if_neg h₃, if_neg h₄, if_neg h₅]

/-- No character of the text is escaped in quotes. -/
def IsBare (t : List Char) : Prop := ∀ c ∈ t, c ∉ escaped

instance (t : List Char) : Decidable (IsBare t) := List.decidableBAll _ t

theorem IsBare.append {s t : List Char} (hs : IsBare s) (ht : IsBare t) : IsBare (s ++ t) :=
  List.forall_mem_append.mpr ⟨hs, ht⟩

theorem IsBare.of_allDigits {t : List Char} (ht : AllDigits t) : IsBare t := by
  have hescaped : ∀ c ∈ escaped, c.isDigit = false := by simp [escaped]
  intro c hc hmem
  have hdigit : c.isDigit = true := ht c hc
  rw [hescaped c hmem] at hdigit
  cases hdigit

/-- A text without such characters is the same in quotes. -/
theorem quote_of_isBare {s : String} (h : IsBare s.toList) : quote s = "'" ++ s ++ "'" := by
  have hbare : s.toList.flatMap escape = s.toList := by
    rw [List.flatMap_congr fun c hc => escape_of_notMem (h c hc), List.flatMap_singleton']
  rw [quote, hbare, ← String.toList_inj]
  simp

/-! ### Numbers -/

theorem isBare_repr (n : Int) : IsBare n.repr.toList := by
  rw [Int.repr_eq_if]
  split
  · rw [Nat.toList_repr]
    exact .of_allDigits (allDigits_toDigits _)
  · rw [String.toList_append, Nat.toList_repr]
    exact .append (by decide) (.of_allDigits (allDigits_toDigits _))

theorem isBare_positional {digits : List Char} (hdigits : AllDigits digits) (e : Int) :
    IsBare (NumberLayout.plain.positional digits e) := by
  have hzeros : ∀ n, IsBare (List.replicate n '0') := fun n =>
    .of_allDigits (allDigits_replicate n)
  unfold NumberLayout.positional
  dsimp only
  split
  · exact .append (.append (by decide) (hzeros _)) (.of_allDigits hdigits)
  · split
    · exact .append (.append (.of_allDigits hdigits) (hzeros _)) (by decide)
    · have htake : AllDigits (digits.take (e.toNat + 1)) :=
        fun c hc => hdigits c (List.mem_of_mem_take hc)
      have hdrop : AllDigits (digits.drop (e.toNat + 1)) :=
        fun c hc => hdigits c (List.mem_of_mem_drop hc)
      exact .append (.append (.of_allDigits htake) (by decide)) (.of_allDigits hdrop)

theorem isBare_magnitude (q : Rat) : IsBare (NumberLayout.plain.magnitude q) := by
  rw [NumberLayout.magnitude]
  exact isBare_positional (allDigits_toDigits _) _

theorem isBare_text (x : Binary64) : IsBare (NumberLayout.plain.text x) := by
  cases x with
  | finite q _ =>
    rw [NumberLayout.text]
    split
    · decide
    · split
      · exact .append (s := ['-']) (by decide) (isBare_magnitude (-q))
      · exact isBare_magnitude q
  | negativeZero => decide
  | infinite negative => cases negative <;> decide
  | nan => decide

/-- The text of a quantity is the same in quotes. -/
theorem quote_quantity (x : Binary64) : quote x.quantity = "'" ++ x.quantity ++ "'" := by
  refine quote_of_isBare ?_
  unfold Binary64.quantity
  split
  · exact isBare_repr _
  · rw [String.toList_ofList]
    exact isBare_text _

end Script

namespace Theme

open Handoff.Parser Handoff.Script

theorem isLine_variantLine (variant : String × String) : IsLine (variantLine variant) := by
  unfold variantLine
  dsimp only
  split
  · next hdefault =>
    rw [hdefault]
    simp only [isLine_append]
    exact ⟨⟨⟨⟨by decide, by decide⟩, by decide⟩, isLine_quote _⟩, by decide⟩
  · simp only [isLine_append]
    exact ⟨⟨⟨⟨by decide, isLine_quote _⟩, by decide⟩, isLine_quote _⟩, by decide⟩

theorem isLine_groupLines (group : String × ColorGroup) : ∀ l ∈ groupLines group, IsLine l := by
  intro l hl
  simp only [groupLines, List.mem_append, List.mem_singleton, List.mem_map] at hl
  rcases hl with (rfl | ⟨variant, -, rfl⟩) | rfl
  · simp only [isLine_append]
    exact ⟨⟨by decide, isLine_quote _⟩, by decide⟩
  · exact isLine_variantLine variant
  · decide

/-- The line of a font size with its parts spelled out. -/
theorem fontSizeLine_eq (name size height : String) : fontSizeLine (name, size, height)
    = "        " ++ quote name ++ ": [" ++ quote size ++ ", \x7b lineHeight: " ++ quote height
      ++ " \x7d]," := by
  have hkey : key "lineHeight" = "lineHeight" := by decide
  have hfield : literal (.object [("lineHeight", .string height)])
      = "\x7b lineHeight: " ++ quote height ++ " \x7d" := by
    simp only [literal, entries, hkey, String.intercalate_singleton, ← String.append_assoc]
    rfl
  have hitems : literal (.array [.string size, .object [("lineHeight", .string height)]])
      = "[" ++ (quote size ++ ", " ++ literal (.object [("lineHeight", .string height)])) ++ "]" := by
    rw [literal, literals, literals, literals, String.intercalate_cons_of_ne_nil (by simp),
      String.intercalate_singleton, literal]
  rw [fontSizeLine, hitems, hfield, ← String.toList_inj]
  simp

theorem isLine_fontSizeLine (entry : String × String × String) : IsLine (fontSizeLine entry) := by
  obtain ⟨name, size, height⟩ := entry
  rw [fontSizeLine_eq]
  simp only [isLine_append]
  exact ⟨⟨⟨⟨⟨⟨by decide, isLine_quote _⟩, by decide⟩, isLine_quote _⟩, by decide⟩, isLine_quote _⟩,
    by decide⟩

theorem isLine_entryLine (entry : String × String) : IsLine (entryLine entry) := by
  simp only [entryLine, isLine_append]
  exact ⟨⟨⟨⟨by decide, isLine_quote _⟩, by decide⟩, isLine_quote _⟩, by decide⟩

/-- The lines of a theme that has these lines in its sections. -/
def framed (colors fontSizes spacing shadows : List String) : List String :=
  head
    ++ sectionLines "colors" colors
    ++ sectionLines "fontSize" fontSizes
    ++ sectionLines "spacing" spacing
    ++ sectionLines "boxShadow" shadows
    ++ tail

theorem lines_eq_framed (t : Theme) : t.lines = framed (t.colors.flatMap groupLines)
    (t.fontSizes.map fontSizeLine) (t.spacing.map entryLine) (t.shadows.map entryLine) := rfl

theorem isLine_sectionLines {name : String} {entries : List String} (hname : IsLine name)
    (hentries : ∀ l ∈ entries, IsLine l) : ∀ l ∈ sectionLines name entries, IsLine l := by
  rw [sectionLines, List.forall_mem_append, List.forall_mem_append, List.forall_mem_singleton,
    List.forall_mem_singleton]
  refine ⟨⟨?_, hentries⟩, by decide⟩
  simp only [isLine_append]
  exact ⟨⟨by decide, hname⟩, by decide⟩

/-- No line of a theme has a break. -/
theorem isLine_of_mem_lines (t : Theme) : ∀ l ∈ t.lines, IsLine l := by
  have hcolors : ∀ l ∈ t.colors.flatMap groupLines, IsLine l :=
    List.forall_mem_flatMap.mpr fun group _ => isLine_groupLines group
  have hfontSizes : ∀ l ∈ t.fontSizes.map fontSizeLine, IsLine l :=
    List.forall_mem_map.mpr fun entry _ => isLine_fontSizeLine entry
  have hentries : ∀ entries : List (String × String), ∀ l ∈ entries.map entryLine, IsLine l :=
    fun _ => List.forall_mem_map.mpr fun entry _ => isLine_entryLine entry
  simp only [lines, List.forall_mem_append]
  exact ⟨⟨⟨⟨⟨by simp [head, IsLine], isLine_sectionLines (by decide) hcolors⟩,
    isLine_sectionLines (by decide) hfontSizes⟩,
    isLine_sectionLines (by decide) (hentries _)⟩,
    isLine_sectionLines (by decide) (hentries _)⟩, by decide⟩

theorem lines_ne_nil (t : Theme) : t.lines ≠ [] := List.cons_ne_nil _ _

/-- The breaks in the text of a theme are those between its lines. -/
theorem splitOn_text (t : Theme) : t.text.toList.splitOn '\n' = t.lines.map String.toList :=
  splitOn_intercalate t.lines_ne_nil fun l hl => (isLine_of_mem_lines t l hl).1

theorem return_notMem_text (t : Theme) : '\r' ∉ t.text.toList := by
  obtain ⟨first, more, hlines⟩ := List.exists_cons_of_ne_nil t.lines_ne_nil
  have hline := isLine_of_mem_lines t
  rw [hlines, List.forall_mem_cons] at hline
  rw [text, hlines, toList_intercalate_cons, List.mem_append, broken, List.mem_flatMap]
  rintro (hfirst | ⟨l, hl, hmem⟩)
  · exact hline.1.2 hfirst
  · rcases List.mem_cons.mp hmem with hbreak | hmem
    · cases hbreak
    · exact (hline.2 l hl).2 hmem

/-! ### Reading a line -/

/-- What a line says that a parser reads together with the break before it. -/
def lineOf? {α : Type} (p : Parser α) (l : String) : Option α := p.run ('\n' :: l.toList)

/-- A line among the colors: it opens a group, shows a variant with its hex form, or closes a group. -/
inductive ColorLine where
  | opens (group : String)
  | shows (variant hex : String)
  | closes

/-- The lines that a group of colors takes. -/
def ColorLine.ofGroup (group : String × ColorGroup) : List ColorLine :=
  [.opens group.1] ++ group.2.map (fun variant => .shows variant.1 variant.2) ++ [.closes]

/-- The line that opens a group. -/
def readOpening : Parser String := do
  line "        "
  let name ← stringLiteral
  Parser.text ": \x7b".toList
  return name

/-- A line among the colors. -/
def readColorLine : Parser ColorLine :=
  ((fun variant => .shows variant.1 variant.2) <$> readVariant)
    <|> (ColorLine.opens <$> readOpening)
    <|> ((fun _ => .closes) <$> line "        \x7d,")

theorem lineOf?_of_run {α : Type} {p : Parser α} {l : String} {a : α}
    (h : ∀ rest, p (broken [l] ++ rest) = some (a, rest)) : lineOf? p l = some a := by
  have hread := h []
  rw [broken, List.flatMap_singleton, List.append_nil] at hread
  rw [lineOf?, run, hread]

/-- Lines that can be read give back what they stand for, in order. -/
theorem map_lineOf? {α : Type} {p : Parser α} {lineFor : α → String}
    (h : ∀ a rest, p (broken [lineFor a] ++ rest) = some (a, rest)) (xs : List α) :
    (xs.map lineFor).map (lineOf? p) = xs.map some := by
  rw [List.map_map]
  refine List.map_congr_left fun a _ => ?_
  rw [Function.comp_apply, lineOf?_of_run (h a)]

theorem colorLine_variantLine (variant : String × String) :
    lineOf? readColorLine (variantLine variant) = some (.shows variant.1 variant.2) := by
  refine lineOf?_of_run fun rest => ?_
  rw [readColorLine, orElse_apply, map_apply, readVariant_run]
  rfl

theorem colorLine_opening (group : String) :
    lineOf? readColorLine ("        " ++ quote group ++ ": \x7b") = some (.opens group) := by
  refine lineOf?_of_run fun rest => ?_
  have htext : broken ["        " ++ quote group ++ ": \x7b"] ++ rest
      = '\n' :: ("        ".toList ++ ((quote group).toList ++ (": \x7b".toList ++ rest))) := by
    simp [broken]
  -- A variant stands two places further to the right.
  have hvariant : readVariant ('\n' :: ("        ".toList
      ++ ((quote group).toList ++ (": \x7b".toList ++ rest)))) = none := by
    have hquote : (quote group).toList = '\'' :: (group.toList.flatMap escape ++ ['\'']) := by
      simp [quote]
    rw [hquote]
    rfl
  have hopening : readOpening ('\n' :: ("        ".toList
      ++ ((quote group).toList ++ (": \x7b".toList ++ rest)))) = some (group, rest) := by
    rw [readOpening, bind_run (line_run _ _), bind_run (stringLiteral_quote group _),
      bind_run (text_append _ _)]
    rfl
  rw [htext, readColorLine, orElse_apply, orElse_apply, map_apply, map_apply, hvariant, hopening]
  rfl

theorem colorLine_closing : lineOf? readColorLine "        \x7d," = some .closes := rfl

/-- The lines of a group say which group it is and what its variants are. -/
theorem colorLines_groupLines (group : String × ColorGroup) :
    (groupLines group).map (lineOf? readColorLine) = (ColorLine.ofGroup group).map some := by
  obtain ⟨name, variants⟩ := group
  have hvariants : (variants.map variantLine).map (lineOf? readColorLine)
      = (variants.map fun variant => ColorLine.shows variant.1 variant.2).map some := by
    rw [List.map_map, List.map_map]
    exact List.map_congr_left fun variant _ => colorLine_variantLine variant
  rw [groupLines, ColorLine.ofGroup, List.map_append, List.map_append, hvariants, List.map_append,
    List.map_append, List.map_singleton, List.map_singleton, colorLine_opening, colorLine_closing]
  rfl

/--
**A theme can be read line by line**, whatever characters its names, its families and its colors have.
Its text is the frame with one line for each entry, and these lines give back in order: the groups of
colors with their variants and hex forms, the names of the text styles with their sizes and line
heights, the spacings in quarters and in sixteenths, and the names of the shadows with their texts.
Numbers stand in their quotes as they are.
-/
theorem themeText_reads_by_line (t : TokenSet) : ∃ colors fontSizes spacing shadows : List String,
    t.themeText.toList.splitOn '\n'
        = (framed colors fontSizes spacing shadows).map String.toList
      ∧ '\r' ∉ t.themeText.toList
      ∧ colors.map (lineOf? readColorLine)
        = ((colorGroups t.colors).flatMap ColorLine.ofGroup).map some
      ∧ fontSizes.map (lineOf? readFontSize) = t.typography.map (fun token => some
        (token.name, token.fontSize.quantity ++ "px", token.lineHeight.quantity ++ "px"))
      ∧ spacing.map (lineOf? readEntry) = t.spacing.map (fun token => some
        ((token.value / 4).quantity, (token.value / 16).quantity ++ "rem"))
      ∧ shadows.map (lineOf? readEntry) = t.effects.map (fun token => some
        (token.name, token.boxShadow))
      ∧ ∀ x : Binary64, quote x.quantity = "'" ++ x.quantity ++ "'" := by
  have hcolors : ∀ groups : List (String × ColorGroup),
      (groups.flatMap groupLines).map (lineOf? readColorLine)
        = (groups.flatMap ColorLine.ofGroup).map some := by
    intro groups
    rw [List.map_flatMap, List.map_flatMap]
    exact List.flatMap_congr fun group _ => colorLines_groupLines group
  have hlines := splitOn_text (ofTokens t)
  rw [lines_eq_framed] at hlines
  refine ⟨_, _, _, _, hlines, return_notMem_text _, hcolors _, ?_, ?_, ?_, quote_quantity⟩
  · rw [map_lineOf? readFontSize_run, ofTokens, List.map_map]
    rfl
  · rw [map_lineOf? readEntry_run, ofTokens, List.map_map]
    rfl
  · rw [map_lineOf? readEntry_run, ofTokens, List.map_map]
    rfl

/-- Tokens with quotes, breaks and backslashes in their names. The first color has the default
variant of its group. -/
def quotedTokens : TokenSet where
  colors := [⟨"it's\nink/DEFAULT", "#102030", ⟨16, 32, 48⟩, 1⟩,
    ⟨"it's\nink/dark\\", "#000000", ⟨0, 0, 0⟩, 1⟩]
  typography := [⟨"body\r'md'", "Inter", 16, 400, 24, none⟩]
  spacing := [⟨"spacing-16", 16⟩]
  effects := [⟨"shadow\n", false, 0, 2, 4, 0, "#000000", 0.25⟩]

/-- All names come back from the lines as they are, and the key without quotes is the default one. -/
theorem themeText_reads_by_line_quotes : ∃ colors fontSizes spacing shadows : List String,
    quotedTokens.themeText.toList.splitOn '\n'
        = (framed colors fontSizes spacing shadows).map String.toList
      ∧ '\r' ∉ quotedTokens.themeText.toList
      ∧ colors.map (lineOf? readColorLine)
        = [some (.opens "it's\nink"), some (.shows "DEFAULT" "#102030"),
          some (.shows "dark\\" "#000000"), some .closes]
      ∧ fontSizes.map (lineOf? readFontSize) = [some ("body\r'md'", "16px", "24px")]
      ∧ spacing.map (lineOf? readEntry) = [some ("4", "1rem")]
      ∧ shadows.map (lineOf? readEntry)
        = [some ("shadow\n", "0px 2px 4px 0px rgba(0, 0, 0, 0.25)")] := by
  obtain ⟨colors, fontSizes, spacing, shadows, hlines, hreturn, hcolors, hsizes, hspacing, hshadows,
    -⟩ := themeText_reads_by_line quotedTokens
  have hgroups : colorGroups quotedTokens.colors
      = [("it's\nink", [("DEFAULT", "#102030"), ("dark\\", "#000000")])] := by decide +kernel
  rw [hgroups] at hcolors
  refine ⟨colors, fontSizes, spacing, shadows, hlines, hreturn, hcolors, ?_, ?_, ?_⟩
  · rw [hsizes]
    decide +kernel
  · rw [hspacing]
    decide +kernel
  · rw [hshadows]
    decide +kernel

end Theme

end Handoff
