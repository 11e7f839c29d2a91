import Handoff.Proofs.Style.Slot
import Mathlib.Data.List.Basic
import Mathlib.Data.List.Nodup
import Mathlib.Tactic.SplitIfs

/-!
# Pieces of a style

The style of a widget is put together from one piece for each slot
(`ofWidget_eq_join`), and a piece is about its slot and nothing else
(`isAbout_piece`). So each piece is found again among the classes and entries of
the whole (`restrict_ofWidget`), and where two widgets have the same class string
and the same inline entries, in whatever order, their pieces are the same
(`piece_eq`).
-/

namespace Handoff

/-- The ways to write a padding. -/
inductive PaddingForm where
  /-- One entry for all four sides. -/
  | one
  /-- One entry for the sides and one for top and bottom. -/
  | pairs
  /-- One entry for each side. -/
  | four
  deriving DecidableEq

/-- How a padding is written. -/
def Padding.form (p : Padding) : PaddingForm :=
  if p.top.equals p.right && p.right.equals p.bottom && p.bottom.equals p.left then .one
  else if p.top.equals p.bottom && p.left.equals p.right then .pairs
  else .four

namespace Style

/-! ### Pieces of a style -/

/-- The style put together from pieces. -/
def join (pieces : List Style) : Style := pieces.foldr (· ++ ·) empty

/-- What the style of a layout says about each slot. -/
def layoutPiece (l : FlexLayout) : Slot → Style
  | .direction => match l.direction with
    | .row => ofClass "flex-row"
    | .column => ofClass "flex-col"
  | .justification => match l.justification with
    | .start => empty
    | .center => ofClass "justify-center"
    | .finish => ofClass "justify-end"
    | .between => ofClass "justify-between"
  | .alignment => match l.alignment with
    | .stretch => empty
    | .start => ofClass "items-start"
    | .center => ofClass "items-center"
    | .finish => ofClass "items-end"
    | .baseline => ofClass "items-baseline"
  | .gap => ofOption (spaced "gap" "gap") l.gap
  | _ => empty

/-- What the style of a size says about each slot. -/
def sizePiece (size : Size) : Slot → Style
  | .width => ofDimension "w" "width" size.width
  | .height => ofDimension "h" "height" size.height
  | _ => empty

/-- What the style of a border says about each slot. -/
def borderPiece (b : Border) : Slot → Style
  | .borderWidth => ofOption (scaled borderWidthScale "borderWidth") b.width
  | .radius => ofOption (scaled radiusScale "borderRadius") b.radius
  | .borderColor => ofOption (colored "border" "borderColor") b.color
  | _ => empty

/-- What the style of a padding says about each slot. -/
def paddingPiece (p : Padding) : Slot → Style
  | .padding => if p.form = .one then ofSide "p" "padding" p.top else empty
  | .paddingHorizontal => if p.form = .pairs then ofSide "px" "paddingHorizontal" p.left else empty
  | .paddingVertical => if p.form = .pairs then ofSide "py" "paddingVertical" p.top else empty
  | .paddingTop => if p.form = .four then ofSide "pt" "paddingTop" p.top else empty
  | .paddingRight => if p.form = .four then ofSide "pr" "paddingRight" p.right else empty
  | .paddingBottom => if p.form = .four then ofSide "pb" "paddingBottom" p.bottom else empty
  | .paddingLeft => if p.form = .four then ofSide "pl" "paddingLeft" p.left else empty
  | _ => empty

/-- What the style of a typography says about each slot. -/
def typographyPiece (t : Typography) : Slot → Style
  | .fontSize => ofOption ofFontSize t.fontSize
  | .fontWeight => ofOption ofFontWeight t.fontWeight
  | .textAlignment => match t.alignment with
    | .left => empty
    | .center => ofClass "text-center"
    | .right => ofClass "text-right"
    | .justify => ofClass "text-justify"
  | .textColor => ofOption (colored "text" "color") t.color
  | .fontFamily => ofOption (fun family => ofInline "fontFamily" (.string family)) t.fontFamily
  | .lineHeight => ofOption (fun height => ofInline "lineHeight" (.quantity height)) t.lineHeight
  | .letterSpacing =>
    ofOption (fun spacing => ofInline "letterSpacing" (.quantity spacing)) t.letterSpacing
  | _ => empty

/-- What the style of a shadow says about each slot. -/
def shadowPiece (s : Shadow) : Slot → Style
  | .shadowColor => ofInline "shadowColor" (.string s.color)
  | .shadowOffset => ofInline "shadowOffset"
    (.object [("width", .quantity s.offsetX), ("height", .quantity s.offsetY)])
  | .shadowOpacity => ofInline "shadowOpacity" (.quantity s.opacity)
  | .shadowRadius => ofInline "shadowRadius" (.quantity s.radius)
  | .elevation => ofInline "elevation" (.quantity s.radius.roundToWhole)
  | _ => empty

/-- What the style of a widget says about each slot. -/
def piece (w : Widget) (slot : Slot) : Style :=
  match slot with
  | .direction | .justification | .alignment | .gap => ofOption (layoutPiece · slot) w.layout
  | .width | .height => ofOption (sizePiece · slot) w.size
  | .background => ofOption (colored "bg" "backgroundColor") w.backgroundColor
  | .borderWidth | .radius | .borderColor => ofOption (borderPiece · slot) w.border
  | .padding | .paddingHorizontal | .paddingVertical | .paddingTop | .paddingRight | .paddingBottom
  | .paddingLeft => ofOption (paddingPiece · slot) w.padding
  | .fontSize | .fontWeight | .textAlignment | .textColor | .fontFamily | .lineHeight
  | .letterSpacing => ofOption (typographyPiece · slot) w.typography
  | .shadowColor | .shadowOffset | .shadowOpacity | .shadowRadius | .elevation =>
    ofOption (shadowPiece · slot) w.shadow

@[simp] theorem append_empty (s : Style) : s ++ empty = s := by
  change Style.mk (s.classes ++ []) (s.inline ++ []) = s
  simp

@[simp] theorem empty_append (s : Style) : empty ++ s = s := rfl

theorem append_assoc (r s t : Style) : r ++ s ++ t = r ++ (s ++ t) := by
  change Style.mk (r.classes ++ s.classes ++ t.classes) (r.inline ++ s.inline ++ t.inline)
    = Style.mk (r.classes ++ (s.classes ++ t.classes)) (r.inline ++ (s.inline ++ t.inline))
  rw [List.append_assoc, List.append_assoc]

theorem join_append (xs ys : List Style) : join (xs ++ ys) = join xs ++ join ys := by
  induction xs with
  | nil => rfl
  | cons x xs ih =>
    change x ++ join (xs ++ ys) = x ++ join xs ++ join ys
    rw [ih, append_assoc]

variable {α : Type}

/-- Where every value has its pieces, a value that may be missing has them too. -/
theorem ofOption_eq_join {style : α → Style} {pieces : α → Slot → Style} {slots : List Slot}
    (h : ∀ a, style a = join (slots.map (pieces a))) (a : Option α) :
    ofOption style a = join (slots.map fun slot => ofOption (pieces · slot) a) := by
  cases a with
  | some a => exact h a
  | none =>
    clear h
    induction slots with
    | nil => rfl
    | cons slot slots ih => exact ih

theorem ofLayout_eq_join (l : FlexLayout) : ofLayout l = join (Slot.ofLayout.map (layoutPiece l)) := by
  simp only [ofLayout, Slot.ofLayout, join, List.map_cons, List.map_nil, List.foldr_cons,
    List.foldr_nil, append_empty, append_assoc]
  rfl

theorem ofSize_eq_join (s : Size) : ofSize s = join (Slot.ofSize.map (sizePiece s)) := by
  simp [ofSize, Slot.ofSize, join, sizePiece]

theorem ofBorder_eq_join (b : Border) : ofBorder b = join (Slot.ofBorder.map (borderPiece b)) := by
  simp [ofBorder, Slot.ofBorder, join, borderPiece, append_assoc]

theorem ofPadding_eq_join (p : Padding) :
    ofPadding p = join (Slot.ofPadding.map (paddingPiece p)) := by
  unfold ofPadding
  split
  · next h => simp [Slot.ofPadding, join, paddingPiece, Padding.form, h]
  · next h =>
    split
    · next h' => simp [Slot.ofPadding, join, paddingPiece, Padding.form, h, h']
    · next h' => simp [Slot.ofPadding, join, paddingPiece, Padding.form, h, h', append_assoc]

theorem ofTypography_eq_join (t : Typography) :
    ofTypography t = join (Slot.ofTypography.map (typographyPiece t)) := by
  simp only [ofTypography, Slot.ofTypography, join, List.map_cons, List.map_nil, List.foldr_cons,
    List.foldr_nil, append_empty, append_assoc]
  rfl

theorem ofShadow_eq_join (s : Shadow) : ofShadow s = join (Slot.ofShadow.map (shadowPiece s)) := rfl

/-- **The style of a widget is put together from its pieces**, one for each slot. -/
theorem ofWidget_eq_join (w : Widget) : ofWidget w = join (Slot.all.map (piece w)) := by
  have hbackground : join ([Slot.background].map (piece w))
      = ofOption (colored "bg" "backgroundColor") w.backgroundColor := append_empty _
  simp only [ofWidget, Slot.all, List.map_append, join_append, hbackground]
  rw [ofOption_eq_join ofLayout_eq_join, ofOption_eq_join ofSize_eq_join,
    ofOption_eq_join ofBorder_eq_join, ofOption_eq_join ofPadding_eq_join,
    ofOption_eq_join ofTypography_eq_join, ofOption_eq_join ofShadow_eq_join]
  rfl

/-! ### Pieces are about their slots -/

/-- The style is about the slot and nothing else, and has at most one inline entry. -/
structure IsAbout (slot : Slot) (s : Style) : Prop where
  classes : ∀ c ∈ s.classes, IsClassOf slot c
  inline : ∀ f ∈ s.inline, Slot.ofKey f.1 = some slot
  length_inline : s.inline.length ≤ 1

variable {slot : Slot}

theorem isAbout_empty : IsAbout slot empty := ⟨by simp [empty], by simp [empty], by simp [empty]⟩

theorem isAbout_ofClass {c : String} (h : IsClassOf slot c) : IsAbout slot (ofClass c) :=
  ⟨by simpa [ofClass] using h, by simp [ofClass], by simp [ofClass]⟩

theorem isAbout_ofInline {name : String} {v : Json} (h : Slot.ofKey name = some slot) :
    IsAbout slot (ofInline name v) :=
  ⟨by simp [ofInline], by simpa [ofInline] using h, by simp [ofInline]⟩

theorem isAbout_ofOption {style : α → Style} (h : ∀ a, IsAbout slot (style a)) (a : Option α) :
    IsAbout slot (ofOption style a) := by
  cases a with
  | some a => exact h a
  | none => exact isAbout_empty

theorem isAbout_ite {p : Prop} [Decidable p] {s : Style} (h : IsAbout slot s) :
    IsAbout slot (if p then s else empty) := by
  split
  · exact h
  · exact isAbout_empty

/-- The class of what has a code, or the value inline. -/
def coded (code? : α → Option String) (spell : String → String) (name : String) (json : α → Json)
    (a : α) : Style :=
  match code? a with
  | some code => ofClass (spell code)
  | none => ofInline name (json a)

theorem spaced_eq_coded (start name : String) (px : Binary64) :
    spaced start name px = coded spacingKey? (start ++ "-" ++ ·) name .quantity px := by
  unfold spaced coded
  cases spacingKey? px <;> rfl

theorem scaled_eq_coded (scale : Scale) (name : String) (size : Binary64) :
    scaled scale name size = coded scale.find? id name .quantity size := by
  unfold scaled coded
  cases scale.find? size <;> rfl

theorem colored_eq_coded (start name hex : String) :
    colored start name hex = coded paletteName? (start ++ "-" ++ ·) name .string hex := by
  unfold colored coded
  cases paletteName? hex <;> rfl

theorem ofFontSize_eq_coded (size : Binary64) :
    ofFontSize size = coded fontSizeScale.find? ("text-" ++ ·) "fontSize" .quantity size := by
  unfold ofFontSize coded
  cases fontSizeScale.find? size <;> rfl

theorem ofFontWeight_eq_coded (weight : String) :
    ofFontWeight weight = coded weightName? ("font-" ++ ·) "fontWeight" .string weight := by
  unfold ofFontWeight coded
  cases weightName? weight <;> rfl

theorem isAbout_coded {code? : α → Option String} {spell : String → String} {name : String}
    {json : α → Json} (hcode : ∀ a code, code? a = some code → IsClassOf slot (spell code))
    (hname : Slot.ofKey name = some slot) (a : α) : IsAbout slot (coded code? spell name json a) := by
  unfold coded
  split
  · next h => exact isAbout_ofClass (hcode a _ h)
  · exact isAbout_ofInline hname

/-- What is found in a scale is in it. -/
theorem exists_of_find?_eq_some {scale : Scale} {size : Binary64} {code : String}
    (h : scale.find? size = some code) : ∃ entry ∈ scale, entry.2 = code := by
  obtain ⟨entry, hfind, rfl⟩ := Option.map_eq_some_iff.mp h
  exact ⟨entry, List.mem_of_find?_eq_some hfind, rfl⟩

theorem spacingScale_blank : ∀ entry ∈ spacingScale, ' ' ∉ entry.2.toList := by decide

theorem palette_blank : ∀ entry ∈ palette, ' ' ∉ entry.2.toList := by decide

theorem isAbout_spaced {start name : String} (hstart : IsStart start)
    (hslot : ∀ tail, Slot.ofParts start tail = some slot) (hname : Slot.ofKey name = some slot)
    (px : Binary64) : IsAbout slot (spaced start name px) := by
  rw [spaced_eq_coded]
  refine isAbout_coded (fun px key h => ?_) hname px
  obtain ⟨entry, hentry, rfl⟩ := exists_of_find?_eq_some h
  exact isClassOf_hyphen hstart (spacingScale_blank entry hentry) (hslot _)

theorem isAbout_scaled {scale : Scale} {name : String}
    (hscale : ∀ entry ∈ scale, IsClassOf slot entry.2) (hname : Slot.ofKey name = some slot)
    (size : Binary64) : IsAbout slot (scaled scale name size) := by
  rw [scaled_eq_coded]
  refine isAbout_coded (fun size code h => ?_) hname size
  obtain ⟨entry, hentry, rfl⟩ := exists_of_find?_eq_some h
  exact hscale entry hentry

/-- What a table has under a key is in it. -/
theorem mem_of_lookup_eq_some {α β : Type} [BEq α] [LawfulBEq α] {a : α} {b : β}
    {table : List (α × β)} (h : table.lookup a = some b) : (a, b) ∈ table := by
  obtain ⟨before, after, rfl, -⟩ := List.lookup_eq_some_iff.mp h
  simp

theorem exists_of_paletteName? {hex color : String} (h : paletteName? hex = some color) :
    ∃ entry ∈ palette, entry.2 = color :=
  ⟨_, mem_of_lookup_eq_some h, rfl⟩

theorem isAbout_colored {start name : String} (hstart : IsStart start)
    (hslot : ∀ entry ∈ palette, Slot.ofParts start ("-" ++ entry.2) = some slot)
    (hname : Slot.ofKey name = some slot) (hex : String) : IsAbout slot (colored start name hex) := by
  rw [colored_eq_coded]
  refine isAbout_coded (fun hex color h => ?_) hname hex
  obtain ⟨entry, hentry, rfl⟩ := exists_of_paletteName? h
  exact isClassOf_hyphen hstart (palette_blank entry hentry) (hslot entry hentry)

theorem isAbout_ofFontSize (size : Binary64) : IsAbout .fontSize (ofFontSize size) := by
  have hscale : ∀ entry ∈ fontSizeScale, IsClassOf .fontSize ("text-" ++ entry.2) := by decide
  rw [ofFontSize_eq_coded]
  refine isAbout_coded (fun size code h => ?_) rfl size
  obtain ⟨entry, hentry, rfl⟩ := exists_of_find?_eq_some h
  exact hscale entry hentry

theorem isAbout_ofFontWeight (weight : String) : IsAbout .fontWeight (ofFontWeight weight) := by
  have hscale : ∀ entry ∈ fontWeightScale, IsClassOf .fontWeight ("font-" ++ entry.2) := by decide
  rw [ofFontWeight_eq_coded]
  refine isAbout_coded (fun weight code h => ?_) rfl weight
  obtain ⟨n, -, hlookup⟩ := Option.bind_eq_some_iff.mp h
  exact hscale _ (mem_of_lookup_eq_some hlookup)

theorem isAbout_ofDimension {start name : String} (hstart : IsStart start)
    (hslot : ∀ tail, Slot.ofParts start tail = some slot) (hname : Slot.ofKey name = some slot)
    (d : Dimension) : IsAbout slot (ofDimension start name d) := by
  cases d with
  | full =>
    have hclass := isClassOf_hyphen hstart (show ' ' ∉ "full".toList by decide) (hslot _)
    rw [String.append_assoc] at hclass
    exact isAbout_ofClass hclass
  | px size => exact isAbout_spaced hstart hslot hname size

theorem isAbout_ofSide {start name : String} (hstart : IsStart start)
    (hslot : ∀ tail, Slot.ofParts start tail = some slot) (hname : Slot.ofKey name = some slot)
    (px : Binary64) : IsAbout slot (ofSide start name px) := by
  unfold ofSide
  split
  · exact isAbout_empty
  · exact isAbout_spaced hstart hslot hname px

/-- The classes that a value of a few cases has are about the slot. -/
theorem isAbout_layoutPiece (l : FlexLayout) (h : slot ∈ Slot.ofLayout) :
    IsAbout slot (layoutPiece l slot) := by
  simp only [Slot.ofLayout, List.mem_cons, List.not_mem_nil, or_false] at h
  rcases h with rfl | rfl | rfl | rfl
  · simp only [layoutPiece]
    cases l.direction <;> exact isAbout_ofClass (by decide)
  · simp only [layoutPiece]
    cases l.justification
    · exact isAbout_empty
    all_goals exact isAbout_ofClass (by decide)
  · simp only [layoutPiece]
    cases l.alignment
    case stretch => exact isAbout_empty
    all_goals exact isAbout_ofClass (by decide)
  · exact isAbout_ofOption (isAbout_spaced (by decide) (fun _ => rfl) rfl) _

theorem isAbout_sizePiece (s : Size) (h : slot ∈ Slot.ofSize) : IsAbout slot (sizePiece s slot) := by
  simp only [Slot.ofSize, List.mem_cons, List.not_mem_nil, or_false] at h
  rcases h with rfl | rfl
  · exact isAbout_ofDimension (by decide) (fun _ => rfl) rfl _
  · exact isAbout_ofDimension (by decide) (fun _ => rfl) rfl _

theorem isAbout_borderPiece (b : Border) (h : slot ∈ Slot.ofBorder) :
    IsAbout slot (borderPiece b slot) := by
  simp only [Slot.ofBorder, List.mem_cons, List.not_mem_nil, or_false] at h
  rcases h with rfl | rfl | rfl
  · exact isAbout_ofOption (isAbout_scaled (by decide) rfl) _
  · exact isAbout_ofOption (isAbout_scaled (by decide) rfl) _
  · exact isAbout_ofOption (isAbout_colored (by decide) (by decide) rfl) _

theorem isAbout_paddingPiece (p : Padding) (h : slot ∈ Slot.ofPadding) :
    IsAbout slot (paddingPiece p slot) := by
  simp only [Slot.ofPadding, List.mem_cons, List.not_mem_nil, or_false] at h
  rcases h with rfl | rfl | rfl | rfl | rfl | rfl | rfl
  all_goals exact isAbout_ite (isAbout_ofSide (by decide) (fun _ => rfl) rfl _)

theorem isAbout_typographyPiece (t : Typography) (h : slot ∈ Slot.ofTypography) :
    IsAbout slot (typographyPiece t slot) := by
  simp only [Slot.ofTypography, List.mem_cons, List.not_mem_nil, or_false] at h
  rcases h with rfl | rfl | rfl | rfl | rfl | rfl | rfl
  · exact isAbout_ofOption isAbout_ofFontSize _
  · exact isAbout_ofOption isAbout_ofFontWeight _
  · simp only [typographyPiece]
    cases t.alignment
    · exact isAbout_empty
    all_goals exact isAbout_ofClass (by decide)
  · exact isAbout_ofOption (isAbout_colored (by decide) (by decide) rfl) _
  all_goals exact isAbout_ofOption (fun _ => isAbout_ofInline rfl) _

theorem isAbout_shadowPiece (s : Shadow) (h : slot ∈ Slot.ofShadow) :
    IsAbout slot (shadowPiece s slot) := by
  simp only [Slot.ofShadow, List.mem_cons, List.not_mem_nil, or_false] at h
  rcases h with rfl | rfl | rfl | rfl | rfl
  all_goals exact isAbout_ofInline rfl

/-- Each piece is about its slot. -/
theorem isAbout_piece (w : Widget) (slot : Slot) : IsAbout slot (piece w slot) := by
  cases slot
  case direction | justification | alignment | gap =>
    exact isAbout_ofOption (fun l => isAbout_layoutPiece l (by decide)) _
  case width | height => exact isAbout_ofOption (fun s => isAbout_sizePiece s (by decide)) _
  case background => exact isAbout_ofOption (isAbout_colored (by decide) (fun _ _ => rfl) rfl) _
  case borderWidth | radius | borderColor =>
    exact isAbout_ofOption (fun b => isAbout_borderPiece b (by decide)) _
  case padding | paddingHorizontal | paddingVertical | paddingTop | paddingRight | paddingBottom
      | paddingLeft =>
    exact isAbout_ofOption (fun p => isAbout_paddingPiece p (by decide)) _
  case fontSize | fontWeight | textAlignment | textColor | fontFamily | lineHeight
      | letterSpacing =>
    exact isAbout_ofOption (fun t => isAbout_typographyPiece t (by decide)) _
  case shadowColor | shadowOffset | shadowOpacity | shadowRadius | elevation =>
    exact isAbout_ofOption (fun s => isAbout_shadowPiece s (by decide)) _

/-! ### Finding the pieces again -/

/-- What a style says about one slot. -/
def restrict (slot : Slot) (s : Style) : Style where
  classes := s.classes.filter fun c => Slot.ofClass c = some slot
  inline := s.inline.filter fun f => Slot.ofKey f.1 = some slot

theorem restrict_append (slot : Slot) (s t : Style) :
    restrict slot (s ++ t) = restrict slot s ++ restrict slot t := by
  change Style.mk ((s.classes ++ t.classes).filter _) ((s.inline ++ t.inline).filter _) = _
  rw [List.filter_append, List.filter_append]
  rfl

theorem restrict_eq_self {s : Style} (h : IsAbout slot s) : restrict slot s = s := by
  have hclasses : s.classes.filter (fun c => Slot.ofClass c = some slot) = s.classes :=
    List.filter_eq_self.mpr fun c hc => decide_eq_true (h.classes c hc).slot
  have hinline : s.inline.filter (fun f => Slot.ofKey f.1 = some slot) = s.inline :=
    List.filter_eq_self.mpr fun f hf => decide_eq_true (h.inline f hf)
  rw [restrict, hclasses, hinline]

theorem restrict_eq_empty {other : Slot} {s : Style} (h : IsAbout other s) (hne : other ≠ slot) :
    restrict slot s = empty := by
  have hclasses : s.classes.filter (fun c => Slot.ofClass c = some slot) = [] := by
    refine List.filter_eq_nil_iff.mpr fun c hc => ?_
    simpa [(h.classes c hc).slot] using hne
  have hinline : s.inline.filter (fun f => Slot.ofKey f.1 = some slot) = [] := by
    refine List.filter_eq_nil_iff.mpr fun f hf => ?_
    simpa [h.inline f hf] using hne
  rw [restrict, hclasses, hinline]
  rfl

/-- Of pieces put together, what is about a slot is its piece. -/
theorem restrict_join {pieces : Slot → Style} (h : ∀ slot, IsAbout slot (pieces slot))
    {slots : List Slot} (hslots : slots.Nodup) (slot : Slot) :
    restrict slot (join (slots.map pieces)) = if slot ∈ slots then pieces slot else empty := by
  induction slots with
  | nil => rfl
  | cons first slots ih =>
    obtain ⟨hfirst, hrest⟩ := List.nodup_cons.mp hslots
    change restrict slot (pieces first ++ join (slots.map pieces)) = _
    rw [restrict_append, ih hrest]
    by_cases heq : slot = first
    · subst heq
      rw [restrict_eq_self (h slot), if_neg hfirst, if_pos (by simp), append_empty]
    · rw [restrict_eq_empty (h first) (Ne.symm heq), empty_append]
      simp [heq]

/-- **What the style of a widget says about a slot is the piece of that slot.** -/
theorem restrict_ofWidget (w : Widget) (slot : Slot) : restrict slot (ofWidget w) = piece w slot := by
  rw [ofWidget_eq_join, restrict_join (isAbout_piece w) Slot.nodup_all, if_pos (Slot.mem_all slot)]

/-- Every class of a widget is about some slot. -/
theorem exists_isClassOf {w : Widget} {c : String} (h : c ∈ (ofWidget w).classes) :
    ∃ slot, IsClassOf slot c := by
  have hjoin : ∀ slots : List Slot, c ∈ (join (slots.map (piece w))).classes →
      ∃ slot, IsClassOf slot c := by
    intro slots hc
    induction slots with
    | nil => simp [join, empty] at hc
    | cons slot slots ih =>
      rcases List.mem_append.mp hc with hc | hc
      · exact ⟨slot, (isAbout_piece w slot).classes c hc⟩
      · exact ih hc
  rw [ofWidget_eq_join] at h
  exact hjoin _ h

/-- The class string of a widget says what its classes are. -/
theorem classes_eq_of_className_eq {v w : Widget}
    (h : (ofWidget v).className = (ofWidget w).className) :
    (ofWidget v).classes = (ofWidget w).classes := by
  have hblank : ∀ u, ∀ c ∈ (ofWidget u).classes, ' ' ∉ c.toList := by
    intro u c hc
    obtain ⟨slot, hslot⟩ := exists_isClassOf hc
    exact hslot.blank
  have hne : ∀ u, "" ∉ (ofWidget u).classes := by
    intro u hc
    obtain ⟨slot, hslot⟩ := exists_isClassOf hc
    exact hslot.ne rfl
  have hsplit := fun u => String.toList_split_intercalate (hblank u)
  have heq : (if (ofWidget v).classes = [] then [""] else (ofWidget v).classes)
      = if (ofWidget w).classes = [] then [""] else (ofWidget w).classes := by
    rw [← hsplit v, ← hsplit w]
    exact congrArg _ (congrArg (fun s : String => (s.split ' ').toList) h)
  split_ifs at heq with hv hw hw
  · rw [hv, hw]
  · exact absurd (heq ▸ List.mem_singleton_self "") (hne w)
  · exact absurd (heq ▸ List.mem_singleton_self "") (hne v)
  · exact heq

/-- **Styles tell pieces apart**, whatever the order of the inline entries. -/
theorem piece_eq {v w : Widget} (hclass : (ofWidget v).className = (ofWidget w).className)
    (hinline : (ofWidget v).inline.Perm (ofWidget w).inline) (slot : Slot) :
    piece v slot = piece w slot := by
  have hclasses : (piece v slot).classes = (piece w slot).classes := by
    rw [← restrict_ofWidget, ← restrict_ofWidget, restrict, restrict,
      classes_eq_of_className_eq hclass]
  have hperm : (piece v slot).inline.Perm (piece w slot).inline := by
    rw [← restrict_ofWidget, ← restrict_ofWidget]
    exact hinline.filter _
  have heq : (piece v slot).inline = (piece w slot).inline := by
    have hlength := (isAbout_piece v slot).length_inline
    generalize (piece v slot).inline = entries at hperm hlength
    match entries with
    | [] => exact hperm.symm.eq_nil.symm
    | [f] => exact (List.perm_singleton.mp hperm.symm).symm
  calc piece v slot = ⟨(piece v slot).classes, (piece v slot).inline⟩ := rfl
    _ = ⟨(piece w slot).classes, (piece w slot).inline⟩ := by rw [hclasses, heq]
    _ = piece w slot := rfl

end Style

end Handoff
