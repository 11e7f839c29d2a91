import Handoff.Component.Widget
import Handoff.Scene.Layer
import Handoff.Text.Folded
import Handoff.Text.Basic

/-!
# Classification

What kind of widget a layer becomes is decided by rules that look at the layer
alone. They are tried in order; the first that applies decides, and if none does
the kind is the fallback.
-/

namespace Handoff

/-- How layers are converted. -/
structure ConversionOptions where
  /-- Whether hidden layers are converted like the others. -/
  includeHidden : Bool := false
  /-- Kept for the configuration; groups are never flattened. -/
  flattenGroups : Bool := true
  /-- Whether layers named like buttons become buttons. -/
  detectButtons : Bool := true
  /-- Kept for the configuration; there is no widget for lists. -/
  detectLists : Bool := true
  deriving DecidableEq, Repr

/-- A rule of classification. -/
inductive Rule where
  /-- Text layers are texts. -/
  | textLayer
  /-- Layers whose name in lowercase contains one of the keywords are of the kind given. -/
  | nameContains (keywords : List String) (kind : WidgetKind)
  /-- Layers with an image among their fills are images. -/
  | imageFill
  deriving DecidableEq, Repr

namespace Rule

/--
The kind the rule gives a layer, if it applies. Buttons are only found where they are looked for.
-/
def apply (options : ConversionOptions) (layer : Layer) : Rule → Option WidgetKind
  | textLayer => if layer.kind = .text then some .text else none
  | nameContains keywords kind =>
    if kind = .button ∧ !options.detectButtons then none
    else
      let name := Text.fold layer.name.toList
      if keywords.any fun keyword => Text.occurs keyword.toList name then some kind else none
  | imageFill => if layer.fills.any (·.kind == .image) then some .image else none

end Rule

/-- Rules in order, and what a layer is when none applies. -/
structure Classifier where
  /-- The rules. -/
  rules : List Rule
  /-- The kind where no rule applies. -/
  fallback : WidgetKind
  deriving DecidableEq, Repr

namespace Classifier

/-- The words in a name that make a button. -/
def buttonKeywords : List String := ["button", "btn", "cta"]

/-- Texts first, then buttons by name, then images, and frames for the rest. -/
def standard : Classifier where
  rules := [.textLayer, .nameContains buttonKeywords .button, .imageFill]
  fallback := .frame

/-- The kind of widget a layer becomes. -/
def classify (c : Classifier) (options : ConversionOptions) (layer : Layer) : WidgetKind :=
  (c.rules.findSome? (Rule.apply options layer)).getD c.fallback

end Classifier

end Handoff
