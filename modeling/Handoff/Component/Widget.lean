import Handoff.Binary64.Basic
import Handoff.Tree

/-!
# Components

What a design becomes before it is written as source: a tree of widgets, each
with the layout, the box, the text and the shadow it shows. A widget that stands
for a hidden layer is a placeholder without any of them.
-/

namespace Handoff

/-! ### Vocabularies -/

/-- What a widget is. -/
inductive WidgetKind where
  /-- A box around other widgets. -/
  | frame
  /-- A text. -/
  | text
  /-- A picture. -/
  | image
  /-- Something to press. -/
  | button
  deriving DecidableEq, Repr

namespace WidgetKind

/-- Every kind. -/
def all : List WidgetKind := [.frame, .text, .image, .button]

/-- The name of the kind. -/
def name : WidgetKind → String
  | frame => "Frame"
  | text => "Text"
  | image => "Image"
  | button => "Button"

/-- Whether widgets of the kind may have widgets inside. -/
def acceptsChildren (k : WidgetKind) : Bool := k == .frame || k == .button

end WidgetKind

/-- The direction of a flexible layout. -/
inductive FlexDirection where
  /-- From left to right. -/
  | row
  /-- From top to bottom. -/
  | column
  deriving DecidableEq, Repr

namespace FlexDirection

/-- Every direction. -/
def all : List FlexDirection := [.row, .column]

/-- The name of the direction. -/
def name : FlexDirection → String
  | row => "row"
  | column => "column"

end FlexDirection

/-- The distribution along a flexible layout. -/
inductive Justification where
  /-- At the start. -/
  | start
  /-- In the middle. -/
  | center
  /-- At the end. -/
  | finish
  /-- Spread out. -/
  | between
  deriving DecidableEq, Repr

namespace Justification

/-- Every distribution. -/
def all : List Justification := [.start, .center, .finish, .between]

/-- The name of the distribution. -/
def name : Justification → String
  | start => "flex-start"
  | center => "center"
  | finish => "flex-end"
  | between => "space-between"

end Justification

/-- The alignment across a flexible layout. -/
inductive ItemAlignment where
  /-- At the start. -/
  | start
  /-- In the middle. -/
  | center
  /-- At the end. -/
  | finish
  /-- By the lines of text. -/
  | baseline
  /-- From end to end. -/
  | stretch
  deriving DecidableEq, Repr

namespace ItemAlignment

/-- Every alignment. -/
def all : List ItemAlignment := [.start, .center, .finish, .baseline, .stretch]

/-- The name of the alignment. -/
def name : ItemAlignment → String
  | start => "flex-start"
  | center => "center"
  | finish => "flex-end"
  | baseline => "baseline"
  | stretch => "stretch"

end ItemAlignment

/-- The alignment of the lines of a text. -/
inductive TextAlignment where
  /-- At the left. -/
  | left
  /-- In the middle. -/
  | center
  /-- At the right. -/
  | right
  /-- At both sides. -/
  | justify
  deriving DecidableEq, Repr

namespace TextAlignment

/-- Every alignment. -/
def all : List TextAlignment := [.left, .center, .right, .justify]

/-- The name of the alignment. -/
def name : TextAlignment → String
  | left => "left"
  | center => "center"
  | right => "right"
  | justify => "justify"

end TextAlignment

/-! ### Groups of attributes -/

/-- A flexible layout. -/
structure FlexLayout where
  /-- The direction. -/
  direction : FlexDirection
  /-- The distribution along the direction. -/
  justification : Justification
  /-- The alignment across the direction. -/
  alignment : ItemAlignment
  /-- The space between two widgets. -/
  gap : Option Binary64 := none
  deriving DecidableEq

/-- The size along one axis. -/
inductive Dimension where
  /-- So many pixels. -/
  | px (size : Binary64)
  /-- All there is. -/
  | full
  deriving DecidableEq

/-- The size of a widget. -/
structure Size where
  /-- The width. -/
  width : Dimension
  /-- The height. -/
  height : Dimension
  deriving DecidableEq

/-- The border of a widget. -/
structure Border where
  /-- Its width. -/
  width : Option Binary64 := none
  /-- The radius of its corners. -/
  radius : Option Binary64 := none
  /-- Its color. -/
  color : Option String := none
  deriving DecidableEq

/-- The padding at the four sides. -/
structure Padding where
  /-- At the top. -/
  top : Binary64
  /-- At the right. -/
  right : Binary64
  /-- At the bottom. -/
  bottom : Binary64
  /-- At the left. -/
  left : Binary64
  deriving DecidableEq

/-- How a text is set. -/
structure Typography where
  /-- The font size. -/
  fontSize : Option Binary64 := none
  /-- The weight of the font, as text. -/
  fontWeight : Option String := none
  /-- The font family. -/
  fontFamily : Option String := none
  /-- The line height. -/
  lineHeight : Option Binary64 := none
  /-- The space between letters. -/
  letterSpacing : Option Binary64 := none
  /-- The alignment of the lines. -/
  alignment : TextAlignment
  /-- The color. -/
  color : Option String := none
  deriving DecidableEq

/-- The shadow of a widget. -/
structure Shadow where
  /-- Its color. -/
  color : String
  /-- Its displacement to the right. -/
  offsetX : Binary64
  /-- Its displacement downwards. -/
  offsetY : Binary64
  /-- Its opacity. -/
  opacity : Binary64
  /-- How far it is blurred. -/
  radius : Binary64
  deriving DecidableEq

/-! ### Widgets -/

/-- A widget, without the widgets inside it. -/
structure Widget where
  /-- The id of the layer it stands for. -/
  id : String
  /-- The name of that layer. -/
  name : String
  /-- What it is. -/
  kind : WidgetKind
  /-- Whether it only holds the place of a hidden layer. -/
  omitted : Bool := false
  /-- How it lays out what is inside. -/
  layout : Option FlexLayout := none
  /-- Its size. -/
  size : Option Size := none
  /-- The color behind it. -/
  backgroundColor : Option String := none
  /-- Its border. -/
  border : Option Border := none
  /-- Its padding. -/
  padding : Option Padding := none
  /-- How its text is set. -/
  typography : Option Typography := none
  /-- Its shadow. -/
  shadow : Option Shadow := none
  /-- Its text. -/
  text : Option String := none
  /-- The picture it shows. -/
  imageRef : Option String := none
  deriving DecidableEq

namespace Widget

/-- The widget that holds the place of a hidden layer. -/
def placeholder (id name : String) : Widget where
  id := id
  name := name
  kind := .frame
  omitted := true

end Widget

/-- A widget with the widgets inside it. -/
abbrev Component := Tree Widget

end Handoff
