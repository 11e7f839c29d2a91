import Handoff.Binary64.Layout
import Handoff.Text.Alphanumeric
import Handoff.Text.Folded
import Handoff.Text.Basic

/-!
# Names of tokens

Tokens are named after the layers they were found on. A layer name becomes a
slug: the words of each part between slashes, in lowercase and joined by dashes,
and the parts that have a word joined by slashes again. Text styles and spacings
are named by their values.
-/

namespace Handoff.Token

/-- A slug while its text is read. -/
structure OpenSlug where
  /-- The slug so far. -/
  slug : List Char := []
  /-- Whether something that is in no word was read after the last letter or number. -/
  pending : Bool := false

/--
The slug with one more character read. A letter or number is added in lowercase, behind a dash if
it begins another word.
-/
def OpenSlug.read (s : OpenSlug) (c : Char) : OpenSlug :=
  if Text.isAlphanumeric c then
    let dash := if s.pending && !s.slug.isEmpty then ['-'] else []
    ⟨s.slug ++ dash ++ Text.lowercase c, false⟩
  else { s with pending := true }

/--
The words of a text, in lowercase and joined by dashes. A word is a run of letters and numbers.
-/
def slugPart (s : List Char) : List Char := (s.foldl OpenSlug.read {}).slug

/-- The slugs of the parts between slashes, the empty ones left out. -/
def slugParts (s : List Char) : List (List Char) :=
  ((s.splitOn '/').map slugPart).filter fun part => !part.isEmpty

/-- The slug of a name. `Brand / Primary 500` becomes `brand/primary-500`. -/
def slug (name : String) : String := .ofList (['/'].intercalate (slugParts name.toList))

/-- The name of a color: the slug of its layer and the first four digits of its hex form. -/
def colorName (layer hex : String) : String :=
  let base := if slug layer = "" then "color" else slug layer
  let digits := (hex.toList.dropWhile (· = '#')).take 4
  base ++ "-" ++ .ofList (Text.fold digits)

/-- The class of a font weight. -/
def weightClass (weight : UInt16) : String :=
  if 700 ≤ weight then "bold" else if 500 ≤ weight then "medium" else "regular"

/-- The class of a font size. -/
def sizeClass (size : Binary64) : String :=
  if size ≤ 12 then "xs"
  else if size ≤ 14 then "sm"
  else if size ≤ 16 then "base"
  else if size ≤ 18 then "lg"
  else if size ≤ 20 then "xl"
  else "2xl"

/-- The name of a text style. -/
def typographyName (size : Binary64) (weight : UInt16) : String :=
  "text-" ++ sizeClass size ++ "-" ++ weightClass weight

/-- The name of a spacing. -/
def spacingName (value : Binary64) : String := "spacing-" ++ value.quantity

/-- The name of a shadow, whose slug has dashes in the place of slashes. -/
def shadowName (layer : String) (inset : Bool) : String :=
  let start := if inset then "inner-shadow" else "shadow"
  let base := Text.replace '/' '-' (slug layer).toList
  if base.isEmpty then start else start ++ "-" ++ .ofList base

end Handoff.Token
