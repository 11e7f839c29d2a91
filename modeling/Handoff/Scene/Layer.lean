import Handoff.Scene.Effect
import Handoff.Scene.Paint
import Handoff.Tree

/-!
# Layers and documents

A design file is a tree of layers. Every attribute of a layer beyond its id and
its kind may be missing, since what is there depends on the kind. A document is
such a tree with the name and the version of the file; the trees right below its
root are its pages.
-/

namespace Handoff

/-! ### Vocabularies -/

/-- The kind of a layer. -/
inductive LayerKind where
  /-- The root of a file. -/
  | document
  /-- A page. -/
  | canvas
  /-- A frame. -/
  | frame
  /-- A group. -/
  | group
  /-- A section. -/
  | pageSection
  /-- A reusable component. -/
  | component
  /-- The variants of a component. -/
  | componentSet
  /-- A use of a component. -/
  | componentInstance
  /-- A text. -/
  | text
  /-- A rectangle. -/
  | rectangle
  /-- An ellipse. -/
  | ellipse
  /-- A line. -/
  | line
  /-- A vector drawing. -/
  | vector
  /-- Shapes joined by set operations. -/
  | booleanOperation
  /-- A star. -/
  | star
  /-- A regular polygon. -/
  | regularPolygon
  /-- A region for exports. -/
  | slice
  /-- A kind this library knows nothing of. -/
  | unknown
  deriving DecidableEq, Repr

namespace LayerKind

/-- Every kind. -/
def all : List LayerKind :=
  [.document, .canvas, .frame, .group, .pageSection, .component, .componentSet, .componentInstance,
    .text, .rectangle, .ellipse, .line, .vector, .booleanOperation, .star, .regularPolygon, .slice,
    .unknown]

/-- The name of the kind in an export. -/
def name : LayerKind → String
  | document => "DOCUMENT"
  | canvas => "CANVAS"
  | frame => "FRAME"
  | group => "GROUP"
  | pageSection => "SECTION"
  | component => "COMPONENT"
  | componentSet => "COMPONENT_SET"
  | componentInstance => "INSTANCE"
  | text => "TEXT"
  | rectangle => "RECTANGLE"
  | ellipse => "ELLIPSE"
  | line => "LINE"
  | vector => "VECTOR"
  | booleanOperation => "BOOLEAN_OPERATION"
  | star => "STAR"
  | regularPolygon => "REGULAR_POLYGON"
  | slice => "SLICE"
  | unknown => "UNKNOWN"

end LayerKind

/-- How a frame lays out what it contains. -/
inductive LayoutMode where
  /-- Not at all. -/
  | none
  /-- From left to right. -/
  | horizontal
  /-- From top to bottom. -/
  | vertical
  deriving DecidableEq, Repr

namespace LayoutMode

/-- Every mode. -/
def all : List LayoutMode := [.none, .horizontal, .vertical]

/-- The name of the mode in an export. -/
def name : LayoutMode → String
  | none => "NONE"
  | horizontal => "HORIZONTAL"
  | vertical => "VERTICAL"

end LayoutMode

/-- Alignment along the direction of the layout. -/
inductive PrimaryAlignment where
  /-- At the start. -/
  | min
  /-- In the middle. -/
  | center
  /-- At the end. -/
  | max
  /-- Spread out. -/
  | spaceBetween
  deriving DecidableEq, Repr

namespace PrimaryAlignment

/-- Every alignment. -/
def all : List PrimaryAlignment := [.min, .center, .max, .spaceBetween]

/-- The name of the alignment in an export. -/
def name : PrimaryAlignment → String
  | min => "MIN"
  | center => "CENTER"
  | max => "MAX"
  | spaceBetween => "SPACE_BETWEEN"

end PrimaryAlignment

/-- Alignment across the direction of the layout. -/
inductive CounterAlignment where
  /-- At the start. -/
  | min
  /-- In the middle. -/
  | center
  /-- At the end. -/
  | max
  /-- By the lines of text. -/
  | baseline
  deriving DecidableEq, Repr

namespace CounterAlignment

/-- Every alignment. -/
def all : List CounterAlignment := [.min, .center, .max, .baseline]

/-- The name of the alignment in an export. -/
def name : CounterAlignment → String
  | min => "MIN"
  | center => "CENTER"
  | max => "MAX"
  | baseline => "BASELINE"

end CounterAlignment

/-- How a layer takes its size along one axis. -/
inductive Sizing where
  /-- By its bounds. -/
  | fixed
  /-- By what it contains. -/
  | hug
  /-- By what contains it. -/
  | fill
  deriving DecidableEq, Repr

namespace Sizing

/-- Every sizing. -/
def all : List Sizing := [.fixed, .hug, .fill]

/-- The name of the sizing in an export. -/
def name : Sizing → String
  | fixed => "FIXED"
  | hug => "HUG"
  | fill => "FILL"

end Sizing

/-- Horizontal alignment of the lines of a text layer. -/
inductive LineAlignment where
  /-- At the left. -/
  | left
  /-- In the middle. -/
  | center
  /-- At the right. -/
  | right
  /-- At both sides. -/
  | justified
  deriving DecidableEq, Repr

namespace LineAlignment

/-- Every alignment. -/
def all : List LineAlignment := [.left, .center, .right, .justified]

/-- The name of the alignment in an export. -/
def name : LineAlignment → String
  | left => "LEFT"
  | center => "CENTER"
  | right => "RIGHT"
  | justified => "JUSTIFIED"

end LineAlignment

/-! ### Layers -/

/-- A rectangle along the axes of the canvas. -/
structure Bounds where
  /-- The left edge. -/
  x : Binary64
  /-- The upper edge. -/
  y : Binary64
  /-- The width. -/
  width : Binary64
  /-- The height. -/
  height : Binary64
  deriving DecidableEq

/-- The style of a text layer. -/
structure TextStyle where
  /-- The font family. -/
  fontFamily : Option String := none
  /-- The font size. -/
  fontSize : Option Binary64 := none
  /-- The weight of the font. -/
  fontWeight : Option Binary64 := none
  /-- The line height in pixels. -/
  lineHeight : Option Binary64 := none
  /-- The space between letters. -/
  letterSpacing : Option Binary64 := none
  /-- The alignment of the lines. -/
  alignment : Option LineAlignment := none
  deriving DecidableEq

/-- A layer of a design, without the layers inside it. -/
structure Layer where
  /-- The id, unique in its file. -/
  id : String
  /-- The name its author gave it. -/
  name : String := ""
  /-- The kind. -/
  kind : LayerKind
  /-- Whether it is shown, where that is given. -/
  visible : Option Bool := none
  /-- Where it lies on the canvas. -/
  bounds : Option Bounds := none
  /-- The paints of its area. -/
  fills : List Paint := []
  /-- The paints of its outline. -/
  strokes : List Paint := []
  /-- The width of its outline. -/
  strokeWeight : Option Binary64 := none
  /-- Shadows and blurs. -/
  effects : List Effect := []
  /-- The radius of its corners. -/
  cornerRadius : Option Binary64 := none
  /-- How it lays out the layers inside. -/
  layoutMode : Option LayoutMode := none
  /-- How those are aligned along the layout. -/
  primaryAlignment : Option PrimaryAlignment := none
  /-- How those are aligned across the layout. -/
  counterAlignment : Option CounterAlignment := none
  /-- The space between those. -/
  itemSpacing : Option Binary64 := none
  /-- The padding at the top. -/
  paddingTop : Option Binary64 := none
  /-- The padding at the right. -/
  paddingRight : Option Binary64 := none
  /-- The padding at the bottom. -/
  paddingBottom : Option Binary64 := none
  /-- The padding at the left. -/
  paddingLeft : Option Binary64 := none
  /-- How its width is found. -/
  horizontalSizing : Option Sizing := none
  /-- How its height is found. -/
  verticalSizing : Option Sizing := none
  /-- The text of a text layer. -/
  characters : Option String := none
  /-- The style of a text layer. -/
  style : Option TextStyle := none
  deriving DecidableEq

namespace Layer

/-- A layer is shown unless it says otherwise. -/
def isVisible (l : Layer) : Bool := l.visible != some false

/-- Whether any of the four paddings is given. -/
def hasPadding (l : Layer) : Bool :=
  l.paddingTop.isSome || l.paddingRight.isSome || l.paddingBottom.isSome || l.paddingLeft.isSome

/-- Whether the layer only holds others together: the root of a file or a page. -/
def isContainer (l : Layer) : Bool := l.kind == .document || l.kind == .canvas

end Layer

/-- A layer with the layers inside it. -/
abbrev Node := Tree Layer

namespace Node

/-- The first node in visiting order that has the id. -/
def findById? (id : String) (roots : Forest Layer) : Option Node := roots.find? (·.id == id)

end Node

/-! ### Documents -/

/-- A whole design file. -/
structure Document where
  /-- The name of the file. -/
  name : String := ""
  /-- The version of the file. -/
  version : Option String := none
  /-- When the file was last changed. -/
  lastModified : Option String := none
  /-- The root, which holds the pages. -/
  root : Node

namespace Document

/-- The pages of the file. -/
def pages (d : Document) : Forest Layer := d.root.children

/-- The ids of the pages, in the order of the file. -/
def pageIds (d : Document) : List String := d.pages.map (·.value.id)

end Document

end Handoff
