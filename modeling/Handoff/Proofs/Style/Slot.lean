import Handoff.Style.Mapping

/-!
# Slots of a style

Every class and every entry of the inline style is about one thing, its slot,
and its text says which: the part of a class before the first hyphen, and for
borders and texts the part after it too. A class never has a blank in it.
-/

namespace Handoff

namespace Style

/-- What a class or an inline entry is about. -/
inductive Slot where
  /-- The direction of a layout. -/
  | direction
  /-- The distribution along a layout. -/
  | justification
  /-- The alignment across a layout. -/
  | alignment
  /-- The space between two widgets. -/
  | gap
  /-- The width. -/
  | width
  /-- The height. -/
  | height
  /-- The color behind a widget. -/
  | background
  /-- The width of a border. -/
  | borderWidth
  /-- The radius of the corners. -/
  | radius
  /-- The color of a border. -/
  | borderColor
  /-- The padding at all sides. -/
  | padding
  /-- The padding at the left and the right. -/
  | paddingHorizontal
  /-- The padding at the top and the bottom. -/
  | paddingVertical
  /-- The padding at the top. -/
  | paddingTop
  /-- The padding at the right. -/
  | paddingRight
  /-- The padding at the bottom. -/
  | paddingBottom
  /-- The padding at the left. -/
  | paddingLeft
  /-- The font size. -/
  | fontSize
  /-- The weight of the font. -/
  | fontWeight
  /-- The alignment of the lines of a text. -/
  | textAlignment
  /-- The color of a text. -/
  | textColor
  /-- The font family. -/
  | fontFamily
  /-- The line height. -/
  | lineHeight
  /-- The space between letters. -/
  | letterSpacing
  /-- The color of a shadow. -/
  | shadowColor
  /-- The displacement of a shadow. -/
  | shadowOffset
  /-- The opacity of a shadow. -/
  | shadowOpacity
  /-- How far a shadow is blurred. -/
  | shadowRadius
  /-- The elevation, for systems without the other entries of a shadow. -/
  | elevation
  deriving DecidableEq

namespace Slot

/-! ### What classes and entries are about -/

/-- The slots of a layout, in the order in which they are written. -/
def ofLayout : List Slot := [direction, justification, alignment, gap]

/-- The slots of a size, in the order in which they are written. -/
def ofSize : List Slot := [width, height]

/-- The slots of a border, in the order in which they are written. -/
def ofBorder : List Slot := [borderWidth, radius, borderColor]

/-- The slots of a padding, in the order in which they are written. -/
def ofPadding : List Slot :=
  [padding, paddingHorizontal, paddingVertical, paddingTop, paddingRight, paddingBottom, paddingLeft]

/-- The slots of a typography, in the order in which they are written. -/
def ofTypography : List Slot :=
  [fontSize, fontWeight, textAlignment, textColor, fontFamily, lineHeight, letterSpacing]

/-- The slots of a shadow, in the order in which they are written. -/
def ofShadow : List Slot := [shadowColor, shadowOffset, shadowOpacity, shadowRadius, elevation]

/-- Every slot, in the order in which a style is written. -/
def all : List Slot :=
  ofLayout ++ ofSize ++ [background] ++ ofBorder ++ ofPadding ++ ofTypography ++ ofShadow

theorem nodup_all : all.Nodup := by decide

theorem mem_all (s : Slot) : s ∈ all := by
  cases s <;> decide

/-- The slot of a class whose text is `head` before the first hyphen and `tail` from there on. -/
def ofParts : String → String → Option Slot
  | "flex", _ => some direction
  | "justify", _ => some justification
  | "items", _ => some alignment
  | "gap", _ => some gap
  | "w", _ => some width
  | "h", _ => some height
  | "bg", _ => some background
  | "border", tail => if tail ∈ ["", "-0", "-2", "-4", "-8"] then some borderWidth else some borderColor
  | "rounded", _ => some radius
  | "p", _ => some padding
  | "px", _ => some paddingHorizontal
  | "py", _ => some paddingVertical
  | "pt", _ => some paddingTop
  | "pr", _ => some paddingRight
  | "pb", _ => some paddingBottom
  | "pl", _ => some paddingLeft
  | "font", _ => some fontWeight
  | "text", tail =>
    if tail ∈ ["-center", "-right", "-justify"] then some textAlignment
    else if tail ∈ fontSizeScale.map (fun entry => "-" ++ entry.2) then some fontSize
    else some textColor
  | _, _ => none

/-- The text of a class before the first hyphen. -/
def head (c : String) : String := .ofList (c.toList.takeWhile (· ≠ '-'))

/-- The text of a class from the first hyphen on. -/
def tail (c : String) : String := .ofList (c.toList.dropWhile (· ≠ '-'))

/-- The slot of a class. -/
def ofClass (c : String) : Option Slot := ofParts (head c) (tail c)

/-- The slot of an inline entry. -/
def ofKey : String → Option Slot
  | "gap" => some gap
  | "width" => some width
  | "height" => some height
  | "backgroundColor" => some background
  | "borderWidth" => some borderWidth
  | "borderRadius" => some radius
  | "borderColor" => some borderColor
  | "padding" => some padding
  | "paddingHorizontal" => some paddingHorizontal
  | "paddingVertical" => some paddingVertical
  | "paddingTop" => some paddingTop
  | "paddingRight" => some paddingRight
  | "paddingBottom" => some paddingBottom
  | "paddingLeft" => some paddingLeft
  | "fontSize" => some fontSize
  | "fontWeight" => some fontWeight
  | "color" => some textColor
  | "fontFamily" => some fontFamily
  | "lineHeight" => some lineHeight
  | "letterSpacing" => some letterSpacing
  | "shadowColor" => some shadowColor
  | "shadowOffset" => some shadowOffset
  | "shadowOpacity" => some shadowOpacity
  | "shadowRadius" => some shadowRadius
  | "elevation" => some elevation
  | _ => none

theorem all_ne_hyphen {start : String} (h : '-' ∉ start.toList) :
    ∀ c ∈ start.toList, decide (c ≠ '-') = true := by
  intro c hc
  rw [decide_eq_true_eq]
  rintro rfl
  exact h hc

theorem head_hyphen {start : String} (h : '-' ∉ start.toList) (key : String) :
    head (start ++ "-" ++ key) = start := by
  simp only [head, String.toList_append, List.append_assoc]
  rw [List.takeWhile_append_of_pos (all_ne_hyphen h)]
  simp

theorem tail_hyphen {start : String} (h : '-' ∉ start.toList) (key : String) :
    tail (start ++ "-" ++ key) = "-" ++ key := by
  simp only [tail, String.toList_append, List.append_assoc]
  rw [List.dropWhile_append_of_pos (all_ne_hyphen h)]
  apply String.toList_inj.mp
  simp

/-- A class that has a name before a hyphen has the slot of that name. -/
theorem ofClass_hyphen {start : String} (h : '-' ∉ start.toList) (key : String) :
    ofClass (start ++ "-" ++ key) = ofParts start ("-" ++ key) := by
  rw [ofClass, head_hyphen h, tail_hyphen h]

end Slot

/-! ### Classes -/

/-- The text can stand among classes and is about the slot. -/
structure IsClassOf (slot : Slot) (c : String) : Prop where
  ne : c ≠ ""
  blank : ' ' ∉ c.toList
  slot : Slot.ofClass c = some slot

instance (slot : Slot) (c : String) : Decidable (IsClassOf slot c) :=
  decidable_of_iff (c ≠ "" ∧ ' ' ∉ c.toList ∧ Slot.ofClass c = some slot)
    ⟨fun h => ⟨h.1, h.2.1, h.2.2⟩, fun h => ⟨h.ne, h.blank, h.slot⟩⟩

/-- A name that has neither a hyphen nor a blank. -/
def IsStart (start : String) : Prop := '-' ∉ start.toList ∧ ' ' ∉ start.toList

instance (start : String) : Decidable (IsStart start) := inferInstanceAs (Decidable (_ ∧ _))

theorem isClassOf_hyphen {slot : Slot} {start key : String} (hstart : IsStart start)
    (hkey : ' ' ∉ key.toList) (hslot : Slot.ofParts start ("-" ++ key) = some slot) :
    IsClassOf slot (start ++ "-" ++ key) where
  ne h := by simpa using congrArg String.toList h
  blank := by simpa using ⟨hstart.2, hkey⟩
  slot := (Slot.ofClass_hyphen hstart.1 key).trans hslot

end Style

end Handoff
