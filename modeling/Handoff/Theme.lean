import Handoff.Binary64.Layout
import Handoff.Script
import Handoff.Text.Basic
import Handoff.Token.Basic

/-!
# Themes

A theme carries the tokens of a design in the form of the configuration that
utility classes are generated from. Colors stand in groups, each with variants;
font sizes, spacings and shadows are lists of entries. The text of a theme is a
fixed frame around one line for each of them.
-/

namespace Handoff

/-! ### Colors -/

/-- A group of colors: its variants with their hex forms. -/
abbrev ColorGroup := List (String × String)

/-- The variant of a color without a group. -/
def defaultVariant : String := "DEFAULT"

/--
The group and the variant that the name of a color stands for. They are divided by the only slash.
-/
def splitColorName (name : String) : String × String :=
  match name.toList.splitOn '/' with
  | [group, variant] => (.ofList group, .ofList variant)
  | _ => (name, defaultVariant)

/-- The group with one more variant, unless it has that variant. -/
def ColorGroup.add (variant hex : String) (group : ColorGroup) : ColorGroup :=
  if group.any (·.1 == variant) then group else group ++ [(variant, hex)]

/-- The groups with one more color, in its group or in a new one. -/
def addColor (name variant hex : String) : List (String × ColorGroup) → List (String × ColorGroup)
  | [] => [(name, [(variant, hex)])]
  | (other, group) :: more =>
    if other = name then (other, ColorGroup.add variant hex group) :: more
    else (other, group) :: addColor name variant hex more

/-- The groups of colors. The first color of a name counts. -/
def colorGroups (colors : List ColorToken) : List (String × ColorGroup) :=
  colors.foldl (fun groups token =>
    let (group, variant) := splitColorName token.name
    addColor group variant token.hex groups) []

/-! ### Shadows -/

/-- The octet that two characters stand for: two hexadecimal digits, or a plus sign and one. -/
def hexOctet? (high low : Char) : Option UInt8 :=
  (if high = '+' then Text.hexNumber? [low] else Text.hexNumber? [high, low]).map .ofNat

/-- The octets of a hex form. Blanks around it and number signs before it are passed over. -/
def Rgb8.ofHex? (hex : String) : Option Rgb8 :=
  match (Text.trim hex.toList).dropWhile (· = '#') with
  | [r₁, r₂, g₁, g₂, b₁, b₂] => do
    return { r := ← hexOctet? r₁ r₂, g := ← hexOctet? g₁ g₂, b := ← hexOctet? b₁ b₂ }
  | _ => none

/--
The text of a shadow: where it lies, how large it is, and its color, black if that is no hex form.
-/
def ShadowToken.boxShadow (t : ShadowToken) : String :=
  let color := (Rgb8.ofHex? t.color).getD ⟨0, 0, 0⟩
  (if t.inset then "inset " else "")
    ++ t.x.quantity ++ "px " ++ t.y.quantity ++ "px " ++ t.blur.quantity ++ "px "
    ++ t.spread.quantity ++ "px rgba(" ++ color.r.toNat.repr ++ ", " ++ color.g.toNat.repr ++ ", "
    ++ color.b.toNat.repr ++ ", " ++ t.opacity.quantity ++ ")"

/-! ### Themes -/

/-- The entries of a theme. -/
structure Theme where
  /-- Groups of colors. -/
  colors : List (String × ColorGroup)
  /-- Names of text styles, each with its size and its line height. -/
  fontSizes : List (String × String × String)
  /-- Keys of spacings, each with its size. -/
  spacing : List (String × String)
  /-- Names of shadows, each with its text. -/
  shadows : List (String × String)

namespace Theme

/-- The theme of a token set. Spacings are keyed by quarters and given in sixteenths of pixels. -/
def ofTokens (t : TokenSet) : Theme where
  colors := colorGroups t.colors
  fontSizes := t.typography.map fun token =>
    (token.name, token.fontSize.quantity ++ "px", token.lineHeight.quantity ++ "px")
  spacing := t.spacing.map fun token =>
    ((token.value / 4).quantity, (token.value / 16).quantity ++ "rem")
  shadows := t.effects.map fun token => (token.name, token.boxShadow)

/-- The line of a variant. The default variant needs no quotes. -/
def variantLine (variant : String × String) : String :=
  let key := if variant.1 = defaultVariant then variant.1 else Script.quote variant.1
  "          " ++ key ++ ": " ++ Script.quote variant.2 ++ ","

/-- The lines of a group of colors. -/
def groupLines (group : String × ColorGroup) : List String :=
  ["        " ++ Script.quote group.1 ++ ": \x7b"] ++ group.2.map variantLine ++ ["        \x7d,"]

/-- The line of a font size. -/
def fontSizeLine (entry : String × String × String) : String :=
  "        " ++ Script.quote entry.1 ++ ": "
    ++ Script.literal (.array [.string entry.2.1, .object [("lineHeight", .string entry.2.2)]])
    ++ ","

/-- The line of an entry whose key and value are strings. -/
def entryLine (entry : String × String) : String :=
  "        " ++ Script.quote entry.1 ++ ": " ++ Script.quote entry.2 ++ ","

/-- The lines of a section of the theme. -/
def sectionLines (name : String) (entries : List String) : List String :=
  ["      " ++ name ++ ": \x7b"] ++ entries ++ ["      \x7d,"]

/-- The lines before the sections. -/
def head : List String := [
  "/** @type \x7bimport('tailwindcss').Config\x7d */",
  "module.exports = \x7b",
  "  content: ['./app/**/*.\x7bjs,jsx,ts,tsx\x7d', './components/**/*.\x7bjs,jsx,ts,tsx\x7d'],",
  "  presets: [require('nativewind/preset')],",
  "  theme: \x7b",
  "    extend: \x7b"]

/-- The lines after the sections, the last one empty. -/
def tail : List String := ["    \x7d,", "  \x7d,", "  plugins: [],", "\x7d;", ""]

/-- The lines of a theme. -/
def lines (t : Theme) : List String :=
  head
    ++ sectionLines "colors" (t.colors.flatMap groupLines)
    ++ sectionLines "fontSize" (t.fontSizes.map fontSizeLine)
    ++ sectionLines "spacing" (t.spacing.map entryLine)
    ++ sectionLines "boxShadow" (t.shadows.map entryLine)
    ++ tail

/-- The text of a theme. -/
def text (t : Theme) : String := "\n".intercalate t.lines

end Theme

/-- The theme of a token set as text. -/
def TokenSet.themeText (t : TokenSet) : String := (Theme.ofTokens t).text

end Handoff
