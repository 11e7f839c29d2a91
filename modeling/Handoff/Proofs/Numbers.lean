import Handoff.Component.Widget
import Handoff.Scene.Layer
import Handoff.Token.Basic

/-!
# The numbers of a value

Layers, widgets and tokens hold numbers of double precision, each in its own
places. Here these places are listed, so that a condition on the numbers of a
value can be said at once; the one in use is that all of them are finite.
-/

namespace Handoff

/-- Every number is finite. -/
def AllFinite (xs : List Binary64) : Prop := ∀ x ∈ xs, x.isFinite = true

instance (xs : List Binary64) : Decidable (AllFinite xs) := List.decidableBAll _ xs

theorem allFinite_nil : AllFinite [] := fun _ hx => absurd hx List.not_mem_nil

theorem allFinite_append {xs ys : List Binary64} :
    AllFinite (xs ++ ys) ↔ AllFinite xs ∧ AllFinite ys := List.forall_mem_append

theorem allFinite_cons {x : Binary64} {xs : List Binary64} :
    AllFinite (x :: xs) ↔ x.isFinite = true ∧ AllFinite xs := List.forall_mem_cons

theorem allFinite_singleton {x : Binary64} : AllFinite [x] ↔ x.isFinite = true :=
  List.forall_mem_singleton

theorem allFinite_toList {x : Option Binary64} :
    AllFinite x.toList ↔ ∀ y ∈ x, y.isFinite = true := by
  simp [AllFinite]

theorem allFinite_flatMap {α : Type} {f : α → List Binary64} {xs : List α} :
    AllFinite (xs.flatMap f) ↔ ∀ x ∈ xs, AllFinite (f x) := List.forall_mem_flatMap

theorem allFinite_flatMap_toList {α : Type} {f : α → List Binary64} {a : Option α} :
    AllFinite (a.toList.flatMap f) ↔ ∀ b ∈ a, AllFinite (f b) := by
  cases a <;> simp [AllFinite]

theorem isFinite_getD {o : Option Binary64} {default : Binary64} (ho : ∀ x ∈ o, x.isFinite = true)
    (hdefault : default.isFinite = true) : (o.getD default).isFinite = true := by
  cases o with
  | none => exact hdefault
  | some x => exact ho x rfl

/-! ### Numbers of a layer -/

/-- The numbers of a color. -/
def Color.numbers (c : Color) : List Binary64 := [c.r, c.g, c.b, c.a]

/-- The numbers of bounds. -/
def Bounds.numbers (b : Bounds) : List Binary64 := [b.x, b.y, b.width, b.height]

/-- The numbers of an offset. -/
def Offset.numbers (o : Offset) : List Binary64 := [o.x, o.y]

/-- The numbers of a paint. -/
def Paint.numbers (p : Paint) : List Binary64 :=
  p.opacity.toList ++ p.color.toList.flatMap Color.numbers

/-- The numbers of an effect. -/
def Effect.numbers (e : Effect) : List Binary64 :=
  e.radius.toList ++ e.spread.toList ++ e.color.toList.flatMap Color.numbers
    ++ e.offset.toList.flatMap Offset.numbers

/-- The numbers of a text style. -/
def TextStyle.numbers (s : TextStyle) : List Binary64 :=
  s.fontSize.toList ++ s.fontWeight.toList ++ s.lineHeight.toList ++ s.letterSpacing.toList

/-- The numbers of a layer. -/
def Layer.numbers (l : Layer) : List Binary64 :=
  l.bounds.toList.flatMap Bounds.numbers ++ l.fills.flatMap Paint.numbers
    ++ l.strokes.flatMap Paint.numbers ++ l.strokeWeight.toList
    ++ l.effects.flatMap Effect.numbers ++ l.cornerRadius.toList ++ l.itemSpacing.toList
    ++ l.paddingTop.toList ++ l.paddingRight.toList ++ l.paddingBottom.toList
    ++ l.paddingLeft.toList ++ l.style.toList.flatMap TextStyle.numbers

/-- The numbers of a node. -/
def Node.numbers (n : Node) : List Binary64 := n.values.flatMap Layer.numbers

/-- The numbers of a document. -/
def Document.numbers (d : Document) : List Binary64 := Node.numbers d.root

/-! ### Numbers of a widget -/

/-- The numbers of a layout. -/
def FlexLayout.numbers (l : FlexLayout) : List Binary64 := l.gap.toList

/-- The numbers of a size along an axis. -/
def Dimension.numbers : Dimension → List Binary64
  | .px size => [size]
  | .full => []

/-- The numbers of a size. -/
def Size.numbers (s : Size) : List Binary64 := s.width.numbers ++ s.height.numbers

/-- The numbers of a border. -/
def Border.numbers (b : Border) : List Binary64 := b.width.toList ++ b.radius.toList

/-- The numbers of a padding. -/
def Padding.numbers (p : Padding) : List Binary64 := [p.top, p.right, p.bottom, p.left]

/-- The numbers of a typography. -/
def Typography.numbers (t : Typography) : List Binary64 :=
  t.fontSize.toList ++ t.lineHeight.toList ++ t.letterSpacing.toList

/-- The numbers of a shadow. -/
def Shadow.numbers (s : Shadow) : List Binary64 := [s.offsetX, s.offsetY, s.opacity, s.radius]

/-- The numbers of a widget. -/
def Widget.numbers (w : Widget) : List Binary64 :=
  w.layout.toList.flatMap FlexLayout.numbers ++ w.size.toList.flatMap Size.numbers
    ++ w.border.toList.flatMap Border.numbers ++ w.padding.toList.flatMap Padding.numbers
    ++ w.typography.toList.flatMap Typography.numbers ++ w.shadow.toList.flatMap Shadow.numbers

/-- The numbers of a component. -/
def Component.numbers (c : Component) : List Binary64 := c.values.flatMap Widget.numbers

/-! ### Numbers of a token set -/

/-- The numbers of a color token. -/
def ColorToken.numbers (t : ColorToken) : List Binary64 := [t.opacity]

/-- The numbers of a typography token. -/
def TypographyToken.numbers (t : TypographyToken) : List Binary64 :=
  [t.fontSize, t.lineHeight] ++ t.letterSpacing.toList

/-- The numbers of a spacing token. -/
def SpacingToken.numbers (t : SpacingToken) : List Binary64 := [t.value]

/-- The numbers of a shadow token. -/
def ShadowToken.numbers (t : ShadowToken) : List Binary64 := [t.x, t.y, t.blur, t.spread, t.opacity]

/-- The numbers of a token set. -/
def TokenSet.numbers (t : TokenSet) : List Binary64 :=
  t.colors.flatMap ColorToken.numbers ++ t.typography.flatMap TypographyToken.numbers
    ++ t.spacing.flatMap SpacingToken.numbers ++ t.effects.flatMap ShadowToken.numbers

end Handoff
