import Handoff.Binary64.Basic
import Handoff.Text.Basic

/-!
# Scales

The fixed tables of the utility classes: which pixel sizes, font sizes, weights,
radii, border widths and colors have a class of their own. A size counts as an
entry of its table if it differs from it by less than a millionth.
-/

namespace Handoff.Style

/-- Sizes in pixels with what they are called. -/
abbrev Scale := List (Binary64 × String)

/-- The keys of spacings and sizes. -/
def spacingScale : Scale := [
  (0, "0"), (1, "px"), (2, "0.5"), (4, "1"), (6, "1.5"), (8, "2"), (10, "2.5"), (12, "3"),
  (14, "3.5"), (16, "4"), (20, "5"), (24, "6"), (28, "7"), (32, "8"), (36, "9"), (40, "10"),
  (44, "11"), (48, "12"), (56, "14"), (64, "16"), (80, "20"), (96, "24")]

/-- The keys of font sizes. -/
def fontSizeScale : Scale := [
  (12, "xs"), (14, "sm"), (16, "base"), (18, "lg"), (20, "xl"), (24, "2xl"), (30, "3xl"),
  (36, "4xl"), (48, "5xl"), (60, "6xl")]

/-- The names of font weights. -/
def fontWeightScale : List (Nat × String) := [
  (100, "thin"), (200, "extralight"), (300, "light"), (400, "normal"), (500, "medium"),
  (600, "semibold"), (700, "bold"), (800, "extrabold"), (900, "black")]

/-- The classes of corner radii. -/
def radiusScale : Scale := [
  (0, "rounded-none"), (2, "rounded-sm"), (4, "rounded"), (6, "rounded-md"), (8, "rounded-lg"),
  (12, "rounded-xl"), (16, "rounded-2xl"), (24, "rounded-3xl"), (9999, "rounded-full")]

/-- The classes of border widths. -/
def borderWidthScale : Scale := [
  (0, "border-0"), (1, "border"), (2, "border-2"), (4, "border-4"), (8, "border-8")]

/-- The names of colors. -/
def palette : List (String × String) := [
  ("#FFFFFF", "white"), ("#000000", "black"), ("#F9FAFB", "gray-50"), ("#F3F4F6", "gray-100"),
  ("#E5E7EB", "gray-200"), ("#D1D5DB", "gray-300"), ("#9CA3AF", "gray-400"),
  ("#6B7280", "gray-500"), ("#4B5563", "gray-600"), ("#374151", "gray-700"),
  ("#1F2937", "gray-800"), ("#111827", "gray-900"), ("#EF4444", "red-500"),
  ("#DC2626", "red-600"), ("#F97316", "orange-500"), ("#EAB308", "yellow-500"),
  ("#22C55E", "green-500"), ("#16A34A", "green-600"), ("#3B82F6", "blue-500"),
  ("#2563EB", "blue-600"), ("#6366F1", "indigo-500"), ("#A855F7", "purple-500"),
  ("#EC4899", "pink-500")]

/-- Sizes closer than this count as one: the double nearest to a millionth. -/
def tolerance : Rat := ((1e-6 : Binary64).toRat?).getD 0

/-- What the entry of a scale that a size hits is called. -/
def Scale.find? (scale : Scale) (size : Binary64) : Option String :=
  (List.find? (fun entry => entry.1.within tolerance size) scale).map (·.2)

/-- The key of a spacing. -/
def spacingKey? (px : Binary64) : Option String := spacingScale.find? px

/--
The name of a color. Blanks around the hex form, its case and a missing number sign are passed over.
-/
def paletteName? (hex : String) : Option String :=
  let digits := (Text.trim hex.toList).dropWhile (· = '#')
  palette.lookup (.ofList ('#' :: digits.map Char.toUpper))

/--
The number that a weight is written as: digits after an optional plus sign, in 16 bits.
-/
def weight? (s : String) : Option Nat :=
  let digits := match s.toList with
    | '+' :: rest => rest
    | digits => digits
  if digits.isEmpty ∨ !digits.all Char.isDigit then none
  else
    let n := digits.foldl (fun value c => value * 10 + (c.toNat - '0'.toNat)) 0
    if n < 65536 then some n else none

/-- The name of a font weight. -/
def weightName? (s : String) : Option String := (weight? s).bind fun n => fontWeightScale.lookup n

end Handoff.Style
