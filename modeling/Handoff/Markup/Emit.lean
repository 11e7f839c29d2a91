import Handoff.Component.Widget
import Handoff.Markup.Basic
import Handoff.Style.Mapping

/-!
# Markup of components

A widget becomes an element of one of five primitives, with its id, its picture
and its style as attributes. A placeholder becomes an empty box whatever is
inside. Texts have no elements inside; a component in which one does has no
markup, and the first such text is reported.
-/

namespace Handoff

/-- The elements that components are made of, in the order in which they are imported. -/
inductive Primitive where
  /-- A picture. -/
  | image
  /-- A picture with other elements on it. -/
  | imageBackground
  /-- Something to press. -/
  | pressable
  /-- A text. -/
  | text
  /-- A box. -/
  | view
  deriving DecidableEq, Repr

namespace Primitive

/-- Every primitive, in alphabetical order. -/
def all : List Primitive := [.image, .imageBackground, .pressable, .text, .view]

/-- The tag of the primitive. -/
def tag : Primitive → String
  | image => "Image"
  | imageBackground => "ImageBackground"
  | pressable => "Pressable"
  | text => "Text"
  | view => "View"

/-- Whether the primitive shows a picture. -/
def showsImage (p : Primitive) : Bool := p == .image || p == .imageBackground

/-- The primitive a component becomes. -/
def ofComponent (c : Component) : Primitive :=
  if c.value.omitted then .view
  else match c.value.kind with
    | .frame => .view
    | .button => .pressable
    | .text => .text
    | .image => if c.children.isEmpty then .image else .imageBackground

end Primitive

/-- A text with other widgets inside, which cannot be written. -/
structure TextWithChildren where
  /-- The id of the text. -/
  id : String
  deriving DecidableEq, Repr

/-- What is reported. -/
def TextWithChildren.message (e : TextWithChildren) : String :=
  "text component " ++ e.id ++ " has children"

namespace Component

/-- The primitives anywhere in a component, in the order in which they are imported. -/
def primitives (c : Component) : List Primitive :=
  Primitive.all.filter fun p => c.walk.any fun visit => Primitive.ofComponent visit.1 == p

/-- The attributes of a widget that becomes the primitive: id, picture, classes and inline style. -/
def attributes (w : Widget) (primitive : Primitive) : List Attribute :=
  let style := Style.ofWidget w
  let picture := if primitive.showsImage then w.imageRef else none
  [⟨"testID", .text w.id⟩]
    ++ (match picture with
      | some uri => [⟨"source", .expression (.object [("uri", .string uri)])⟩]
      | none => [])
    ++ (if style.className = "" then [] else [⟨"className", .text style.className⟩])
    ++ (if style.inline.isEmpty then [] else [⟨"style", .expression (.object style.inline)⟩])

/-- The attributes of a placeholder. -/
def placeholderAttributes (w : Widget) : List Attribute :=
  [⟨"testID", .text w.id⟩, ⟨"className", .text "hidden"⟩]

mutual
/--
The markup of a component, as it is made where assertions are checked: a text with widgets inside
fails one of them and is reported. Where assertions are not checked, such a text is written as if
nothing were inside.
-/
def markup : Component → Except TextWithChildren Markup
  | ⟨w, children⟩ =>
    let primitive := Primitive.ofComponent ⟨w, children⟩
    let opening := attributes w primitive
    if w.omitted then .ok (.closed primitive.tag (placeholderAttributes w))
    else if primitive = .text then
      if !children.isEmpty then .error ⟨w.id⟩
      else match w.text with
        | none => .ok (.closed primitive.tag opening)
        | some content =>
          .ok (if content = "" then .closed primitive.tag opening
            else .text primitive.tag opening content)
    else if children.isEmpty then .ok (.closed primitive.tag opening)
    else (markupOfAll children).map (.parent primitive.tag opening)
/-- The markup of components one after the other; the first that has none is reported. -/
def markupOfAll : List (Tree Widget) → Except TextWithChildren (List Markup)
  | [] => .ok []
  | c :: cs => (markup c).bind fun m => (markupOfAll cs).map (m :: ·)
end

/-- The source of a component that starts at column `indent`. -/
def emit (c : Component) (indent : Nat) : Except TextWithChildren String :=
  c.markup.map (Markup.source indent)

end Component

end Handoff
