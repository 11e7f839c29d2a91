import Handoff.Component.Widget
import Handoff.Json.Basic
import Handoff.Script
import Handoff.Style.Scale

/-!
# Styles of widgets

Each attribute of a widget becomes a utility class where its scale has an entry
for it, and an entry of the inline style with the exact value where not, so that
nothing is lost. Shadows have no classes and are always inline. The groups of
attributes are mapped one after the other and put together.
-/

namespace Handoff

/-- The style of a widget. -/
structure Style where
  /-- Utility classes, in order. -/
  classes : List String := []
  /-- Entries of the inline style, in order. -/
  inline : Json.Fields := []

namespace Style

instance : Append Style := ⟨fun s t => ⟨s.classes ++ t.classes, s.inline ++ t.inline⟩⟩

/-- The style of nothing. -/
def empty : Style := {}

/-- The style of one class. -/
def ofClass (name : String) : Style := { classes := [name] }

/-- The style of one inline entry. -/
def ofInline (name : String) (value : Json) : Style := { inline := [(name, value)] }

/-- The style of something that may be missing. -/
def ofOption {α : Type} (style : α → Style) : Option α → Style
  | some a => style a
  | none => empty

/-- The class of `start` with the spacing key of the size, or the size inline. -/
def spaced (start name : String) (px : Binary64) : Style :=
  match spacingKey? px with
  | some key => ofClass (start ++ "-" ++ key)
  | none => ofInline name (.quantity px)

/-- The class of an entry of the scale, or the size inline. -/
def scaled (scale : Scale) (name : String) (size : Binary64) : Style :=
  match scale.find? size with
  | some entry => ofClass entry
  | none => ofInline name (.quantity size)

/-- The class of `start` with the name of the color, or the color inline. -/
def colored (start name hex : String) : Style :=
  match paletteName? hex with
  | some color => ofClass (start ++ "-" ++ color)
  | none => ofInline name (.string hex)

/-! ### Groups of attributes -/

/--
The style of a layout. Starting at the start and stretching are how things are without a class.
-/
def ofLayout (l : FlexLayout) : Style :=
  (match l.direction with
    | .row => ofClass "flex-row"
    | .column => ofClass "flex-col")
  ++ (match l.justification with
    | .start => empty
    | .center => ofClass "justify-center"
    | .finish => ofClass "justify-end"
    | .between => ofClass "justify-between")
  ++ (match l.alignment with
    | .stretch => empty
    | .start => ofClass "items-start"
    | .center => ofClass "items-center"
    | .finish => ofClass "items-end"
    | .baseline => ofClass "items-baseline")
  ++ ofOption (spaced "gap" "gap") l.gap

/-- The style of the size along one axis. -/
def ofDimension (start name : String) : Dimension → Style
  | .full => ofClass (start ++ "-full")
  | .px size => spaced start name size

/-- The style of a size. -/
def ofSize (s : Size) : Style :=
  ofDimension "w" "width" s.width ++ ofDimension "h" "height" s.height

/-- The style of a border. -/
def ofBorder (b : Border) : Style :=
  ofOption (scaled borderWidthScale "borderWidth") b.width
  ++ ofOption (scaled radiusScale "borderRadius") b.radius
  ++ ofOption (colored "border" "borderColor") b.color

/-- The style of the padding at one or more sides; there is none where it is zero. -/
def ofSide (start name : String) (px : Binary64) : Style :=
  if px.equals 0 then empty else spaced start name px

/-- The style of a padding: one entry for four equal sides, two for equal pairs, else four. -/
def ofPadding (p : Padding) : Style :=
  if p.top.equals p.right && p.right.equals p.bottom && p.bottom.equals p.left then
    ofSide "p" "padding" p.top
  else if p.top.equals p.bottom && p.left.equals p.right then
    ofSide "px" "paddingHorizontal" p.left ++ ofSide "py" "paddingVertical" p.top
  else
    ofSide "pt" "paddingTop" p.top ++ ofSide "pr" "paddingRight" p.right
      ++ ofSide "pb" "paddingBottom" p.bottom ++ ofSide "pl" "paddingLeft" p.left

/-- The style of a font size. -/
def ofFontSize (size : Binary64) : Style :=
  match fontSizeScale.find? size with
  | some key => ofClass ("text-" ++ key)
  | none => ofInline "fontSize" (.quantity size)

/-- The style of a font weight. -/
def ofFontWeight (weight : String) : Style :=
  match weightName? weight with
  | some name => ofClass ("font-" ++ name)
  | none => ofInline "fontWeight" (.string weight)

/-- The style of a typography. -/
def ofTypography (t : Typography) : Style :=
  ofOption ofFontSize t.fontSize
  ++ ofOption ofFontWeight t.fontWeight
  ++ (match t.alignment with
    | .left => empty
    | .center => ofClass "text-center"
    | .right => ofClass "text-right"
    | .justify => ofClass "text-justify")
  ++ ofOption (colored "text" "color") t.color
  ++ ofOption (fun family => ofInline "fontFamily" (.string family)) t.fontFamily
  ++ ofOption (fun height => ofInline "lineHeight" (.quantity height)) t.lineHeight
  ++ ofOption (fun spacing => ofInline "letterSpacing" (.quantity spacing)) t.letterSpacing

/--
The style of a shadow. The elevation, a whole number, is for systems without the other entries.
-/
def ofShadow (s : Shadow) : Style where
  inline := [
    ("shadowColor", .string s.color),
    ("shadowOffset", .object [("width", .quantity s.offsetX), ("height", .quantity s.offsetY)]),
    ("shadowOpacity", .quantity s.opacity),
    ("shadowRadius", .quantity s.radius),
    ("elevation", .quantity s.radius.roundToWhole)]

/-- The style of a widget. -/
def ofWidget (w : Widget) : Style :=
  ofOption ofLayout w.layout
  ++ ofOption ofSize w.size
  ++ ofOption (colored "bg" "backgroundColor") w.backgroundColor
  ++ ofOption ofBorder w.border
  ++ ofOption ofPadding w.padding
  ++ ofOption ofTypography w.typography
  ++ ofOption ofShadow w.shadow

/-! ### Text of a style -/

/-- The classes with blanks between them. -/
def className (s : Style) : String := " ".intercalate s.classes

/-- The literal of the inline style, if there is any. -/
def inlineLiteral? (s : Style) : Option String :=
  if s.inline.isEmpty then none else some (Script.literal (.object s.inline))

/-- Whether the style says nothing at all. -/
def isEmpty (s : Style) : Bool := s.className.isEmpty && s.inline.isEmpty

end Style

end Handoff
