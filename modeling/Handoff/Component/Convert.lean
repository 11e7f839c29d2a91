import Handoff.Binary64.Layout
import Handoff.Component.Classify

/-!
# Conversion

A design becomes a component layer by layer. What is inside a hidden layer is
cut off and the layer itself becomes a placeholder; every other layer becomes a
widget that depends on the attributes of that layer alone. Conversion is
therefore a cut followed by a map, and keeps the shape of what is left.
-/

namespace Handoff

namespace Layer

/-! ### Attributes -/

/-- Whether the layer is replaced by a placeholder. -/
def isOmitted (options : ConversionOptions) (l : Layer) : Bool :=
  !l.isVisible && !options.includeHidden

/-- The hex form of the first solid fill that is shown. -/
def fillColor? (l : Layer) : Option String :=
  ((l.fills.filter Paint.isVisible).findSome? Paint.solidColor?).map Color.hex

/-- The flexible layout of a layer that has one. A spacing of zero is none. -/
def flexLayout? (l : Layer) : Option FlexLayout := do
  let direction ← match ← l.layoutMode with
    | .horizontal => some .row
    | .vertical => some .column
    | .none => none
  return {
    direction := direction
    justification := match l.primaryAlignment with
      | some .min | none => .start
      | some .center => .center
      | some .max => .finish
      | some .spaceBetween => .between
    alignment := match l.counterAlignment with
      | some .min => .start
      | some .center => .center
      | some .max => .finish
      | some .baseline => .baseline
      | none => .stretch
    gap := l.itemSpacing.filter fun gap => !gap.equals 0 }

/-- The size along one axis. -/
def dimension (sizing : Option Sizing) (px : Binary64) : Dimension :=
  if sizing = some .fill then .full else .px px

/-- The size of a layer with bounds. -/
def size? (l : Layer) : Option Size :=
  l.bounds.map fun bounds =>
    { width := dimension l.horizontalSizing bounds.width
      height := dimension l.verticalSizing bounds.height }

/-- The width of every border. -/
def strokeWidth : Binary64 := 1

/-- The border of a layer with a stroke or with round corners. The first stroke gives the color. -/
def border? (l : Layer) : Option Border :=
  let radius := l.cornerRadius.filter fun radius => 0 < radius
  match radius, l.strokes.head? with
  | none, none => none
  | radius, stroke => some {
      width := stroke.map fun _ => strokeWidth
      radius := radius
      color := (stroke.bind Paint.solidColor?).map Color.hex }

/-- The padding of a layer that has any, missing sides being zero. -/
def padding? (l : Layer) : Option Padding :=
  if l.hasPadding then some {
    top := l.paddingTop.getD 0
    right := l.paddingRight.getD 0
    bottom := l.paddingBottom.getD 0
    left := l.paddingLeft.getD 0 }
  else none

/-- How the text of a layer with a style is set. A letter spacing of zero is none. -/
def typography? (l : Layer) : Option Typography :=
  l.style.map fun style =>
    { fontSize := style.fontSize
      fontWeight := style.fontWeight.map Binary64.quantity
      fontFamily := style.fontFamily
      lineHeight := style.lineHeight
      letterSpacing := style.letterSpacing.filter fun spacing => !spacing.equals 0
      alignment := match style.alignment with
        | some .left | none => .left
        | some .center => .center
        | some .right => .right
        | some .justified => .justify
      color := l.fillColor? }

/-- The opacity of a shadow without a color. -/
def shadowOpacity : Binary64 := 0.25

/-- The radius of a shadow without one. -/
def shadowRadius : Binary64 := 4

/-- The first shadow behind the layer that is shown. -/
def shadow? (l : Layer) : Option Shadow :=
  (l.effects.find? fun e => e.kind == .dropShadow && e.isVisible).map fun effect =>
    let offset := effect.offset.getD default
    { color := (effect.color.getD default).hex
      offsetX := offset.x
      offsetY := offset.y
      opacity := (effect.color.map (·.a)).getD shadowOpacity
      radius := effect.radius.getD shadowRadius }

/-- The picture of the first image fill that has one. -/
def imageRef? (l : Layer) : Option String :=
  (l.fills.filter (·.kind == .image)).findSome? (·.imageRef)

/-! ### Widgets -/

/-- The widget a layer becomes. -/
def widget (options : ConversionOptions) (classifier : Classifier) (l : Layer) : Widget :=
  if l.isOmitted options then .placeholder l.id l.name
  else
    let kind := classifier.classify options l
    let isText := l.kind == .text
    { id := l.id
      name := l.name
      kind := kind
      layout := l.flexLayout?
      size := l.size?
      backgroundColor := if isText then none else l.fillColor?
      border := l.border?
      padding := l.padding?
      typography := if isText then l.typography? else none
      shadow := l.shadow?
      text := if isText then l.characters else none
      imageRef := if kind = .image then l.imageRef? else none }

end Layer

namespace Node

/-- The component a design becomes. -/
def convert (options : ConversionOptions) (classifier : Classifier) (node : Node) : Component :=
  (node.cut (Layer.isOmitted options)).map (Layer.widget options classifier)

end Node

end Handoff
