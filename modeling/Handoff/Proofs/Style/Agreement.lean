import Handoff.Proofs.Binary64.Equality
import Handoff.Proofs.Numbers
import Handoff.Proofs.Style.Pieces

/-!
# Styles lose nothing

Two widgets with the same class string and the same inline entries have the same
attributes (`sameAttributes_of_style_eq`): their numbers are equal or hit the
same entry of a scale, their colors are the same text or have the same name, and
everything else is the same. What is missing counts as what has no class: a
padding as four zeros, a border as one that says nothing, a typography as one
that says nothing and is aligned at the left.
-/

namespace Handoff

namespace Style

/-! ### Agreement -/

/-- The entry of a scale that a size hits. -/
def Scale.entry? (scale : Scale) (size : Binary64) : Option (Binary64 × String) :=
  List.find? (fun entry => entry.1.within tolerance size) scale

/-- Two sizes are equal as numbers or hit the same entry of the scale. -/
def SameSize (scale : Scale) (x y : Binary64) : Prop :=
  x.equals y = true ∨ ∃ entry, scale.entry? x = some entry ∧ scale.entry? y = some entry

/-- Two colors are the same text or have the same name. -/
def SameColor (a b : String) : Prop :=
  a = b ∨ ∃ name, paletteName? a = some name ∧ paletteName? b = some name

/-- Two weights are the same text or are written as the same number, which has a name. -/
def SameWeight (a b : String) : Prop :=
  a = b ∨ ∃ n name, weight? a = some n ∧ weight? b = some n ∧ (n, name) ∈ fontWeightScale

/-- Two layouts are the same. -/
structure SameLayout (l m : FlexLayout) : Prop where
  direction : l.direction = m.direction
  justification : l.justification = m.justification
  alignment : l.alignment = m.alignment
  gap : Option.Rel (SameSize spacingScale) l.gap m.gap

/-- Two sizes along an axis are both all there is, or the same. -/
inductive SameDimension : Dimension → Dimension → Prop where
  | full : SameDimension .full .full
  | px {x y : Binary64} (h : SameSize spacingScale x y) : SameDimension (.px x) (.px y)

/-- Two borders are the same. -/
structure SameBorder (b c : Border) : Prop where
  width : Option.Rel (SameSize borderWidthScale) b.width c.width
  radius : Option.Rel (SameSize radiusScale) b.radius c.radius
  color : Option.Rel SameColor b.color c.color

/-- Two paddings are the same. -/
structure SamePadding (p q : Padding) : Prop where
  top : SameSize spacingScale p.top q.top
  right : SameSize spacingScale p.right q.right
  bottom : SameSize spacingScale p.bottom q.bottom
  left : SameSize spacingScale p.left q.left

/-- Two typographies are the same. -/
structure SameTypography (t u : Typography) : Prop where
  fontSize : Option.Rel (SameSize fontSizeScale) t.fontSize u.fontSize
  fontWeight : Option.Rel SameWeight t.fontWeight u.fontWeight
  fontFamily : t.fontFamily = u.fontFamily
  lineHeight : Option.Rel (fun x y => x.equals y = true) t.lineHeight u.lineHeight
  letterSpacing : Option.Rel (fun x y => x.equals y = true) t.letterSpacing u.letterSpacing
  alignment : t.alignment = u.alignment
  color : Option.Rel SameColor t.color u.color

/-- Two shadows are the same. -/
structure SameShadow (s t : Shadow) : Prop where
  color : s.color = t.color
  offsetX : s.offsetX.equals t.offsetX = true
  offsetY : s.offsetY.equals t.offsetY = true
  opacity : s.opacity.equals t.opacity = true
  radius : s.radius.equals t.radius = true

/-- The padding that says nothing. -/
def noPadding : Padding := ⟨0, 0, 0, 0⟩

/-- The typography that says nothing. -/
def noTypography : Typography := { alignment := .left }

/-- Two widgets have the same attributes of style. -/
structure SameAttributes (v w : Widget) : Prop where
  layout : Option.Rel SameLayout v.layout w.layout
  size : Option.Rel (fun s t => SameDimension s.width t.width ∧ SameDimension s.height t.height)
    v.size w.size
  background : Option.Rel SameColor v.backgroundColor w.backgroundColor
  border : SameBorder (v.border.getD {}) (w.border.getD {})
  padding : SamePadding (v.padding.getD noPadding) (w.padding.getD noPadding)
  typography : SameTypography (v.typography.getD noTypography) (w.typography.getD noTypography)
  shadow : Option.Rel SameShadow v.shadow w.shadow

/-! ### Codes and inline values -/

variable {α : Type}

theorem ofClass_ne_empty (c : String) : ofClass c ≠ empty := by simp [ofClass, empty]

theorem ofInline_ne_empty (name : String) (v : Json) : ofInline name v ≠ empty := by
  simp [ofInline, empty]

theorem ofClass_ne_ofInline (c name : String) (v : Json) : ofClass c ≠ ofInline name v := by
  simp [ofClass, ofInline]

theorem ofClass_injective {c d : String} (h : ofClass c = ofClass d) : c = d := by
  simpa [ofClass] using h

theorem ofInline_injective {name : String} {u v : Json} (h : ofInline name u = ofInline name v) :
    u = v := by
  simpa [ofInline] using h

theorem coded_ne_empty (code? : α → Option String) (spell : String → String) (name : String)
    (json : α → Json) (a : α) : coded code? spell name json a ≠ empty := by
  unfold coded
  split
  · exact ofClass_ne_empty _
  · exact ofInline_ne_empty _ _

/-- What has the same class or inline value has the same code or JSON. -/
theorem coded_injective {code? : α → Option String} {spell : String → String} {name : String}
    {json : α → Json} (hspell : spell.Injective) {a b : α}
    (h : coded code? spell name json a = coded code? spell name json b) :
    (∃ code, code? a = some code ∧ code? b = some code) ∨ json a = json b := by
  unfold coded at h
  split at h
  · next code ha =>
    split at h
    · next code' hb =>
      obtain rfl : code = code' := hspell (ofClass_injective h)
      exact .inl ⟨code, ha, hb⟩
    · exact absurd h (ofClass_ne_ofInline _ _ _)
  · split at h
    · exact absurd h.symm (ofClass_ne_ofInline _ _ _)
    · exact .inr (ofInline_injective h)

theorem hyphen_injective (start : String) : (start ++ "-" ++ · : String → String).Injective := by
  intro a b h
  simpa using h

/-- Values that may be missing are related where what they say is the same. -/
theorem rel_of_ofOption_eq {f : α → Style} {R : α → α → Prop} (hne : ∀ a, f a ≠ empty)
    {a b : Option α} (hR : ∀ x ∈ a, ∀ y ∈ b, f x = f y → R x y) (h : ofOption f a = ofOption f b) :
    Option.Rel R a b := by
  cases a with
  | none =>
    cases b with
    | none => exact .none
    | some y => exact absurd h.symm (hne y)
  | some x =>
    cases b with
    | none => exact absurd h (hne x)
    | some y => exact .some (hR x rfl y rfl h)

/-! ### Single attributes -/

/-- Sizes with the same code hit the same entry, if no code is there twice. -/
theorem exists_entry_of_find?_eq {scale : Scale} (hscale : (scale.map (·.2)).Nodup)
    {x y : Binary64} {code : String} (hx : scale.find? x = some code)
    (hy : scale.find? y = some code) :
    ∃ entry, scale.entry? x = some entry ∧ scale.entry? y = some entry := by
  obtain ⟨entry, hentry, rfl⟩ := Option.map_eq_some_iff.mp hx
  obtain ⟨entry', hentry', hcode⟩ := Option.map_eq_some_iff.mp hy
  obtain rfl : entry' = entry := List.inj_on_of_nodup_map hscale
    (List.mem_of_find?_eq_some hentry') (List.mem_of_find?_eq_some hentry) hcode
  exact ⟨entry', hentry, hentry'⟩

/-- Sizes that are coded alike are the same. -/
theorem sameSize_of_coded_eq {scale : Scale} (hscale : (scale.map (·.2)).Nodup)
    {spell : String → String} (hspell : spell.Injective) {name : String} {x y : Binary64}
    (hx : x.isFinite = true) (hy : y.isFinite = true)
    (h : coded scale.find? spell name .quantity x = coded scale.find? spell name .quantity y) :
    SameSize scale x y := by
  rcases coded_injective hspell h with ⟨code, hcx, hcy⟩ | hjson
  · exact .inr (exists_entry_of_find?_eq hscale hcx hcy)
  · exact .inl (Json.equals_of_quantity_eq hx hy hjson)

theorem nodup_spacingScale : (spacingScale.map (·.2)).Nodup := by decide

theorem nodup_fontSizeScale : (fontSizeScale.map (·.2)).Nodup := by decide

theorem nodup_radiusScale : (radiusScale.map (·.2)).Nodup := by decide

theorem nodup_borderWidthScale : (borderWidthScale.map (·.2)).Nodup := by decide

theorem sameSize_of_spaced_eq {start name : String} {x y : Binary64} (hx : x.isFinite = true)
    (hy : y.isFinite = true) (h : spaced start name x = spaced start name y) :
    SameSize spacingScale x y := by
  rw [spaced_eq_coded, spaced_eq_coded] at h
  exact sameSize_of_coded_eq nodup_spacingScale (hyphen_injective start) hx hy h

theorem sameSize_of_scaled_eq {scale : Scale} (hscale : (scale.map (·.2)).Nodup) {name : String}
    {x y : Binary64} (hx : x.isFinite = true) (hy : y.isFinite = true)
    (h : scaled scale name x = scaled scale name y) : SameSize scale x y := by
  rw [scaled_eq_coded, scaled_eq_coded] at h
  exact sameSize_of_coded_eq hscale Function.injective_id hx hy h

theorem sameSize_of_ofFontSize_eq {x y : Binary64} (hx : x.isFinite = true)
    (hy : y.isFinite = true) (h : ofFontSize x = ofFontSize y) : SameSize fontSizeScale x y := by
  rw [ofFontSize_eq_coded, ofFontSize_eq_coded] at h
  refine sameSize_of_coded_eq nodup_fontSizeScale (fun a b hab => ?_) hx hy h
  simpa using hab

theorem sameColor_of_colored_eq {start name a b : String}
    (h : colored start name a = colored start name b) : SameColor a b := by
  rw [colored_eq_coded, colored_eq_coded] at h
  rcases coded_injective (hyphen_injective start) h with hname | hjson
  · exact .inr hname
  · exact .inl (by simpa using hjson)

/-- Weights that have the same name are written as the same number. -/
theorem sameWeight_of_weightName?_eq {a b name : String} (ha : weightName? a = some name)
    (hb : weightName? b = some name) : SameWeight a b := by
  have hnodup : (fontWeightScale.map (·.2)).Nodup := by decide
  obtain ⟨n, hn, hlookup⟩ := Option.bind_eq_some_iff.mp ha
  obtain ⟨m, hm, hlookup'⟩ := Option.bind_eq_some_iff.mp hb
  have hmem := mem_of_lookup_eq_some hlookup
  have heq := List.inj_on_of_nodup_map hnodup hmem (mem_of_lookup_eq_some hlookup') rfl
  obtain rfl : n = m := congrArg Prod.fst heq
  exact .inr ⟨n, name, hn, hm, hmem⟩

theorem sameWeight_of_ofFontWeight_eq {a b : String} (h : ofFontWeight a = ofFontWeight b) :
    SameWeight a b := by
  rw [ofFontWeight_eq_coded, ofFontWeight_eq_coded] at h
  rcases coded_injective (fun c d hcd => by simpa using hcd) h with ⟨name, ha, hb⟩ | hjson
  · exact sameWeight_of_weightName?_eq ha hb
  · exact .inl (by simpa using hjson)

theorem spaced_ne_empty (start name : String) (px : Binary64) : spaced start name px ≠ empty := by
  rw [spaced_eq_coded]
  exact coded_ne_empty _ _ _ _ _

theorem ofDimension_ne_empty (start name : String) (d : Dimension) :
    ofDimension start name d ≠ empty := by
  unfold ofDimension
  split
  · exact ofClass_ne_empty _
  · exact spaced_ne_empty _ _ _

/-- No spacing has the key that stands for all there is. -/
theorem spaced_ne_full (start name : String) (x : Binary64) :
    spaced start name x ≠ ofClass (start ++ "-full") := by
  have hfull : ∀ entry ∈ spacingScale, "-" ++ entry.2 ≠ "-full" := by decide
  intro h
  unfold spaced at h
  split at h
  · next key hkey =>
    obtain ⟨entry, hentry, rfl⟩ := exists_of_find?_eq_some hkey
    have heq := ofClass_injective h
    rw [String.append_assoc] at heq
    exact hfull entry hentry (by simpa using heq)
  · exact ofClass_ne_ofInline _ _ _ h.symm

theorem sameDimension_of_ofDimension_eq {start name : String} {d e : Dimension}
    (hd : AllFinite d.numbers) (he : AllFinite e.numbers)
    (h : ofDimension start name d = ofDimension start name e) : SameDimension d e := by
  unfold ofDimension at h
  split at h
  · split at h
    · exact .full
    · exact absurd h.symm (spaced_ne_full _ _ _)
  · next x =>
    split at h
    · exact absurd h (spaced_ne_full _ _ _)
    · next y => exact .px (sameSize_of_spaced_eq (hd x (by simp [Dimension.numbers]))
        (he y (by simp [Dimension.numbers])) h)

/-! ### Groups of attributes -/

theorem direction_injective {l m : FlexLayout}
    (h : layoutPiece l .direction = layoutPiece m .direction) : l.direction = m.direction := by
  simp only [layoutPiece] at h
  cases hl : l.direction <;> cases hm : m.direction <;> simp_all [ofClass]

theorem justification_injective {l m : FlexLayout}
    (h : layoutPiece l .justification = layoutPiece m .justification) :
    l.justification = m.justification := by
  simp only [layoutPiece] at h
  cases hl : l.justification <;> cases hm : m.justification <;> simp_all [ofClass, empty]

theorem alignment_injective {l m : FlexLayout}
    (h : layoutPiece l .alignment = layoutPiece m .alignment) : l.alignment = m.alignment := by
  simp only [layoutPiece] at h
  cases hl : l.alignment <;> cases hm : m.alignment <;> simp_all [ofClass, empty]

theorem textAlignment_injective {t u : Typography}
    (h : typographyPiece t .textAlignment = typographyPiece u .textAlignment) :
    t.alignment = u.alignment := by
  simp only [typographyPiece] at h
  cases ht : t.alignment <;> cases hu : u.alignment <;> simp_all [ofClass, empty]

theorem layoutPiece_direction_ne_empty (l : FlexLayout) : layoutPiece l .direction ≠ empty := by
  simp only [layoutPiece]
  cases l.direction <;> exact ofClass_ne_empty _

/-- Layouts are the same where what they say about each slot is. -/
theorem rel_sameLayout {a b : Option FlexLayout}
    (ha : ∀ l ∈ a, AllFinite l.numbers) (hb : ∀ l ∈ b, AllFinite l.numbers)
    (h : ∀ slot ∈ Slot.ofLayout, ofOption (layoutPiece · slot) a = ofOption (layoutPiece · slot) b) :
    Option.Rel SameLayout a b := by
  refine rel_of_ofOption_eq layoutPiece_direction_ne_empty ?_ (h .direction (by decide))
  rintro l rfl m rfl -
  have hl := allFinite_toList.mp (ha l rfl)
  have hm := allFinite_toList.mp (hb m rfl)
  have hgap : ofOption (spaced "gap" "gap") l.gap = ofOption (spaced "gap" "gap") m.gap :=
    h .gap (by decide)
  constructor
  · exact direction_injective (h .direction (by decide))
  · exact justification_injective (h .justification (by decide))
  · exact alignment_injective (h .alignment (by decide))
  · exact rel_of_ofOption_eq (spaced_ne_empty _ _)
      (fun x hx y hy => sameSize_of_spaced_eq (hl x hx) (hm y hy)) hgap

/-- Sizes are the same where what they say about each slot is. -/
theorem rel_sameSize {a b : Option Size}
    (ha : ∀ s ∈ a, AllFinite s.numbers) (hb : ∀ s ∈ b, AllFinite s.numbers)
    (h : ∀ slot ∈ Slot.ofSize, ofOption (sizePiece · slot) a = ofOption (sizePiece · slot) b) :
    Option.Rel (fun s t => SameDimension s.width t.width ∧ SameDimension s.height t.height) a b := by
  have hne : ∀ s, sizePiece s .width ≠ empty := fun s => ofDimension_ne_empty "w" "width" s.width
  refine rel_of_ofOption_eq hne ?_ (h .width (by decide))
  rintro s rfl t rfl hwidth
  obtain ⟨hsw, hsh⟩ := allFinite_append.mp (ha s rfl)
  obtain ⟨htw, hth⟩ := allFinite_append.mp (hb t rfl)
  constructor
  · exact sameDimension_of_ofDimension_eq hsw htw hwidth
  · exact sameDimension_of_ofDimension_eq hsh hth (h .height (by decide))

theorem ofOption_borderPiece (b : Option Border) (slot : Slot) :
    ofOption (borderPiece · slot) b = borderPiece (b.getD {}) slot := by
  cases b with
  | some b => rfl
  | none => cases slot <;> rfl

theorem rel_sameSize_of_scaled {scale : Scale} (hscale : (scale.map (·.2)).Nodup) {name : String}
    {a b : Option Binary64} (ha : ∀ x ∈ a, x.isFinite = true) (hb : ∀ x ∈ b, x.isFinite = true)
    (h : ofOption (scaled scale name) a = ofOption (scaled scale name) b) :
    Option.Rel (SameSize scale) a b := by
  refine rel_of_ofOption_eq (fun x => ?_) (fun x hx y hy => ?_) h
  · rw [scaled_eq_coded]
    exact coded_ne_empty _ _ _ _ _
  · exact sameSize_of_scaled_eq hscale (ha x hx) (hb y hy)

theorem rel_sameColor {start name : String} {a b : Option String}
    (h : ofOption (colored start name) a = ofOption (colored start name) b) :
    Option.Rel SameColor a b := by
  refine rel_of_ofOption_eq (fun x => ?_) (fun x _ y _ => sameColor_of_colored_eq) h
  rw [colored_eq_coded]
  exact coded_ne_empty _ _ _ _ _

theorem rel_equals {name : String} {a b : Option Binary64} (ha : ∀ x ∈ a, x.isFinite = true)
    (hb : ∀ x ∈ b, x.isFinite = true)
    (h : ofOption (fun x => ofInline name (.quantity x)) a
      = ofOption (fun x => ofInline name (.quantity x)) b) :
    Option.Rel (fun x y => x.equals y = true) a b :=
  rel_of_ofOption_eq (fun _ => ofInline_ne_empty _ _)
    (fun x hx y hy hxy => Json.equals_of_quantity_eq (ha x hx) (hb y hy) (ofInline_injective hxy)) h

/-- Borders are the same where what they say about each slot is. -/
theorem sameBorder_of_pieces {b c : Border} (hb : AllFinite b.numbers) (hc : AllFinite c.numbers)
    (h : ∀ slot ∈ Slot.ofBorder, borderPiece b slot = borderPiece c slot) : SameBorder b c := by
  simp only [Border.numbers, allFinite_append, allFinite_toList] at hb hc
  obtain ⟨hbw, hbr⟩ := hb
  obtain ⟨hcw, hcr⟩ := hc
  constructor
  · exact rel_sameSize_of_scaled nodup_borderWidthScale hbw hcw (h .borderWidth (by decide))
  · exact rel_sameSize_of_scaled nodup_radiusScale hbr hcr (h .radius (by decide))
  · exact rel_sameColor (h .borderColor (by decide))

theorem ofOption_typographyPiece (t : Option Typography) (slot : Slot) :
    ofOption (typographyPiece · slot) t = typographyPiece (t.getD noTypography) slot := by
  cases t with
  | some t => rfl
  | none => cases slot <;> rfl

/-- Typographies are the same where what they say about each slot is. -/
theorem sameTypography_of_pieces {t u : Typography}
    (ht : AllFinite t.numbers) (hu : AllFinite u.numbers)
    (h : ∀ slot ∈ Slot.ofTypography, typographyPiece t slot = typographyPiece u slot) :
    SameTypography t u := by
  simp only [Typography.numbers, allFinite_append, allFinite_toList] at ht hu
  obtain ⟨⟨htsize, htheight⟩, htspacing⟩ := ht
  obtain ⟨⟨husize, huheight⟩, huspacing⟩ := hu
  constructor
  · refine rel_of_ofOption_eq (fun x => ?_) (fun x hx y hy => ?_) (h .fontSize (by decide))
    · rw [ofFontSize_eq_coded]
      exact coded_ne_empty _ _ _ _ _
    · exact sameSize_of_ofFontSize_eq (htsize x hx) (husize y hy)
  · refine rel_of_ofOption_eq (fun x => ?_) (fun x _ y _ => sameWeight_of_ofFontWeight_eq)
      (h .fontWeight (by decide))
    rw [ofFontWeight_eq_coded]
    exact coded_ne_empty _ _ _ _ _
  · have hfamily := h .fontFamily (by decide)
    simp only [typographyPiece] at hfamily
    cases htf : t.fontFamily <;> cases huf : u.fontFamily <;> simp_all [ofOption, ofInline, empty]
  · exact rel_equals htheight huheight (h .lineHeight (by decide))
  · exact rel_equals htspacing huspacing (h .letterSpacing (by decide))
  · exact textAlignment_injective (h .textAlignment (by decide))
  · exact rel_sameColor (h .textColor (by decide))

/-- Shadows are the same where what they say about each slot is. -/
theorem rel_sameShadow {a b : Option Shadow}
    (ha : ∀ s ∈ a, AllFinite s.numbers) (hb : ∀ s ∈ b, AllFinite s.numbers)
    (h : ∀ slot ∈ Slot.ofShadow, ofOption (shadowPiece · slot) a = ofOption (shadowPiece · slot) b) :
    Option.Rel SameShadow a b := by
  refine rel_of_ofOption_eq (fun s => ofInline_ne_empty _ _) ?_ (h .shadowColor (by decide))
  rintro s rfl t rfl hcolor
  have hs := ha s rfl
  have ht := hb t rfl
  simp only [Shadow.numbers, allFinite_cons] at hs ht
  obtain ⟨hsx, hsy, hso, hsr, -⟩ := hs
  obtain ⟨htx, hty, hto, htr, -⟩ := ht
  have hoffset : Json.object [("width", .quantity s.offsetX), ("height", .quantity s.offsetY)]
      = .object [("width", .quantity t.offsetX), ("height", .quantity t.offsetY)] :=
    ofInline_injective (h .shadowOffset (by decide))
  simp only [Json.object.injEq, List.cons.injEq, Prod.mk.injEq, true_and, and_true] at hoffset
  constructor
  · simpa using ofInline_injective hcolor
  · exact Json.equals_of_quantity_eq hsx htx hoffset.1
  · exact Json.equals_of_quantity_eq hsy hty hoffset.2
  · exact Json.equals_of_quantity_eq hso hto (ofInline_injective (h .shadowOpacity (by decide)))
  · exact Json.equals_of_quantity_eq hsr htr (ofInline_injective (h .shadowRadius (by decide)))

/-! ### Paddings -/

/-- What classes and inline entries say, without the names of what they are about. -/
def marks (s : Style) : List (String ⊕ Json) :=
  s.classes.map (fun c => .inl (Slot.tail c)) ++ s.inline.map fun f => .inr f.2

/-- What the style of the padding at a side says. -/
def sideMarks (px : Binary64) : List (String ⊕ Json) :=
  if px.equals 0 then []
  else match spacingKey? px with
    | some key => [.inl ("-" ++ key)]
    | none => [.inr (.quantity px)]

theorem marks_ofSide {start : String} (hstart : IsStart start) (name : String) (px : Binary64) :
    marks (ofSide start name px) = sideMarks px := by
  unfold ofSide sideMarks
  split
  · rfl
  · unfold spaced
    cases spacingKey? px with
    | some key => simp [marks, ofClass, Slot.tail_hyphen hstart.1]
    | none => simp [marks, ofInline]

theorem marks_empty : marks empty = [] := rfl

theorem spacingKey?_eq_of_equals {x y : Binary64} (hx : x.isFinite = true) (h : x.equals y = true) :
    spacingKey? x = spacingKey? y := by
  unfold spacingKey? Scale.find? Binary64.within
  rw [(Binary64.equals_iff hx).mp h]

/-- Equal paddings say the same. -/
theorem sideMarks_eq_of_equals {x y : Binary64} (hx : x.isFinite = true) (h : x.equals y = true) :
    sideMarks x = sideMarks y := by
  have hy : y.isFinite = true := by
    rwa [Binary64.isFinite, ← (Binary64.equals_iff hx).mp h]
  have hzero : x.equals 0 = y.equals 0 := by
    rw [Bool.eq_iff_iff, Binary64.equals_iff hx, Binary64.equals_iff hy,
      (Binary64.equals_iff hx).mp h]
  unfold sideMarks
  rw [hzero, spacingKey?_eq_of_equals hx h, Json.quantity_eq_of_equals hx h]

/-- What the style of a side says tells its padding. -/
theorem sameSize_of_sideMarks_eq {x y : Binary64} (hx : x.isFinite = true) (hy : y.isFinite = true)
    (h : sideMarks x = sideMarks y) : SameSize spacingScale x y := by
  unfold sideMarks at h
  split_ifs at h with hx₀ hy₀ hy₀
  · exact .inl (Binary64.equals_trans hx hx₀ (Binary64.equals_symm hy hy₀))
  · split at h <;> simp at h
  · split at h <;> simp at h
  · split at h
    · next key hkey =>
      split at h
      · next key' hkey' =>
        obtain rfl : key = key' := by simpa using h
        exact .inr (exists_entry_of_find?_eq nodup_spacingScale hkey hkey')
      · simp at h
    · split at h
      · simp at h
      · exact .inl (Json.equals_of_quantity_eq hx hy (by simpa using h))

theorem form_cases (p : Padding) :
    (p.form = .one ∧ p.top.equals p.right = true ∧ p.right.equals p.bottom = true
        ∧ p.bottom.equals p.left = true)
      ∨ (p.form = .pairs ∧ p.top.equals p.bottom = true ∧ p.left.equals p.right = true)
      ∨ p.form = .four := by
  unfold Padding.form
  split_ifs with h h'
  · simp only [Bool.and_eq_true] at h
    exact .inl ⟨rfl, h.1.1, h.1.2, h.2⟩
  · simp only [Bool.and_eq_true] at h'
    exact .inr (.inl ⟨rfl, h'.1, h'.2⟩)
  · exact .inr (.inr rfl)

/-- What a padding says about the slots of a side is what the style of the side says. -/
structure SaysSides (p : Padding) : Prop where
  top : marks (paddingPiece p .padding) ++ marks (paddingPiece p .paddingVertical)
    ++ marks (paddingPiece p .paddingTop) = sideMarks p.top
  right : marks (paddingPiece p .padding) ++ marks (paddingPiece p .paddingHorizontal)
    ++ marks (paddingPiece p .paddingRight) = sideMarks p.right
  bottom : marks (paddingPiece p .padding) ++ marks (paddingPiece p .paddingVertical)
    ++ marks (paddingPiece p .paddingBottom) = sideMarks p.bottom
  left : marks (paddingPiece p .padding) ++ marks (paddingPiece p .paddingHorizontal)
    ++ marks (paddingPiece p .paddingLeft) = sideMarks p.left

theorem saysSides (p : Padding) (hp : AllFinite p.numbers) : SaysSides p := by
  simp only [Padding.numbers, allFinite_cons] at hp
  obtain ⟨htop, hright, hbottom, hleft, -⟩ := hp
  rcases form_cases p with ⟨hform, htr, hrb, hbl⟩ | ⟨hform, htb, hlr⟩ | hform
  · have htb := Binary64.equals_trans htop htr hrb
    have htl := Binary64.equals_trans htop htb hbl
    have hmarks : marks (ofSide "p" "padding" p.top) = sideMarks p.top := marks_ofSide (by decide) _ _
    constructor <;> simp [paddingPiece, hform, marks_empty, hmarks]
    · exact sideMarks_eq_of_equals htop htr
    · exact sideMarks_eq_of_equals htop htb
    · exact sideMarks_eq_of_equals htop htl
  · have hx : marks (ofSide "px" "paddingHorizontal" p.left) = sideMarks p.left :=
      marks_ofSide (by decide) _ _
    have hy : marks (ofSide "py" "paddingVertical" p.top) = sideMarks p.top :=
      marks_ofSide (by decide) _ _
    constructor <;> simp [paddingPiece, hform, marks_empty, hx, hy]
    · exact sideMarks_eq_of_equals hleft hlr
    · exact sideMarks_eq_of_equals htop htb
  · have hmarks : ∀ start ∈ ["pt", "pr", "pb", "pl"], ∀ name px,
        marks (ofSide start name px) = sideMarks px := by
      simp only [List.forall_mem_cons]
      exact ⟨marks_ofSide (by decide), marks_ofSide (by decide), marks_ofSide (by decide),
        marks_ofSide (by decide), by simp⟩
    simp only [List.forall_mem_cons] at hmarks
    obtain ⟨ht, hr, hb, hl, -⟩ := hmarks
    constructor <;> simp [paddingPiece, hform, marks_empty, ht, hr, hb, hl]

/-- Paddings are the same where what they say about each slot is. -/
theorem samePadding_of_pieces {p q : Padding} (hp : AllFinite p.numbers) (hq : AllFinite q.numbers)
    (h : ∀ slot ∈ Slot.ofPadding, paddingPiece p slot = paddingPiece q slot) : SamePadding p q := by
  have hsp := saysSides p hp
  have hsq := saysSides q hq
  simp only [Padding.numbers, allFinite_cons] at hp hq
  obtain ⟨hpt, hpr, hpb, hpl, -⟩ := hp
  obtain ⟨hqt, hqr, hqb, hql, -⟩ := hq
  simp only [Slot.ofPadding, List.forall_mem_cons] at h
  obtain ⟨h₁, hx, hy, ht, hr, hb, hl, -⟩ := h
  constructor
  · exact sameSize_of_sideMarks_eq hpt hqt (by rw [← hsp.top, ← hsq.top, h₁, hy, ht])
  · exact sameSize_of_sideMarks_eq hpr hqr (by rw [← hsp.right, ← hsq.right, h₁, hx, hr])
  · exact sameSize_of_sideMarks_eq hpb hqb (by rw [← hsp.bottom, ← hsq.bottom, h₁, hy, hb])
  · exact sameSize_of_sideMarks_eq hpl hql (by rw [← hsp.left, ← hsq.left, h₁, hx, hl])

theorem ofOption_paddingPiece (p : Option Padding) (slot : Slot) :
    ofOption (paddingPiece · slot) p = paddingPiece (p.getD noPadding) slot := by
  cases p with
  | some p => rfl
  | none =>
    have hzero := Binary64.equals_refl Binary64.isFinite_zero
    have hform : noPadding.form = .one := by simp [Padding.form, noPadding, hzero]
    have hside : ofSide "p" "padding" noPadding.top = empty := if_pos hzero
    cases slot <;> simp [ofOption, paddingPiece, hform, hside]

/-! ### Widgets -/

theorem forall_getD {P : α → Prop} {a : Option α} {b : α} (ha : ∀ c ∈ a, P c) (hb : P b) :
    P (a.getD b) := by
  cases a with
  | none => exact hb
  | some c => exact ha c rfl

/-- **Styles lose nothing**: widgets with the same style have the same attributes. -/
theorem sameAttributes_of_style_eq {v w : Widget} (hv : AllFinite v.numbers)
    (hw : AllFinite w.numbers) (hclass : (ofWidget v).className = (ofWidget w).className)
    (hinline : (ofWidget v).inline.Perm (ofWidget w).inline) : SameAttributes v w := by
  have hpiece := piece_eq hclass hinline
  simp only [Widget.numbers, allFinite_append, allFinite_flatMap_toList] at hv hw
  obtain ⟨⟨⟨⟨⟨hvl, hvs⟩, hvb⟩, hvp⟩, hvt⟩, hvsh⟩ := hv
  obtain ⟨⟨⟨⟨⟨hwl, hws⟩, hwb⟩, hwp⟩, hwt⟩, hwsh⟩ := hw
  have hnone : AllFinite [] := by simp [AllFinite]
  have hzero : AllFinite noPadding.numbers := by
    simp [Padding.numbers, noPadding, AllFinite, Binary64.isFinite_zero]
  constructor
  · refine rel_sameLayout hvl hwl ?_
    simp only [Slot.ofLayout, List.forall_mem_cons]
    exact ⟨hpiece .direction, hpiece .justification, hpiece .alignment, hpiece .gap, by simp⟩
  · refine rel_sameSize hvs hws ?_
    simp only [Slot.ofSize, List.forall_mem_cons]
    exact ⟨hpiece .width, hpiece .height, by simp⟩
  · exact rel_sameColor (hpiece .background)
  · refine sameBorder_of_pieces (forall_getD hvb hnone) (forall_getD hwb hnone) ?_
    simp only [← ofOption_borderPiece, Slot.ofBorder, List.forall_mem_cons]
    exact ⟨hpiece .borderWidth, hpiece .radius, hpiece .borderColor, by simp⟩
  · refine samePadding_of_pieces (forall_getD hvp hzero) (forall_getD hwp hzero) ?_
    simp only [← ofOption_paddingPiece, Slot.ofPadding, List.forall_mem_cons]
    exact ⟨hpiece .padding, hpiece .paddingHorizontal, hpiece .paddingVertical, hpiece .paddingTop,
      hpiece .paddingRight, hpiece .paddingBottom, hpiece .paddingLeft, by simp⟩
  · refine sameTypography_of_pieces (forall_getD hvt hnone) (forall_getD hwt hnone) ?_
    simp only [← ofOption_typographyPiece, Slot.ofTypography, List.forall_mem_cons]
    exact ⟨hpiece .fontSize, hpiece .fontWeight, hpiece .textAlignment, hpiece .textColor,
      hpiece .fontFamily, hpiece .lineHeight, hpiece .letterSpacing, by simp⟩
  · refine rel_sameShadow hvsh hwsh ?_
    simp only [Slot.ofShadow, List.forall_mem_cons]
    exact ⟨hpiece .shadowColor, hpiece .shadowOffset, hpiece .shadowOpacity, hpiece .shadowRadius,
      hpiece .elevation, by simp⟩

/-- A width close to sixteen, a color in small letters and no padding make no other style. -/
theorem sameAttributes_of_white_box :
    let v : Widget :=
      { id := "1:2", name := "a", kind := .frame, backgroundColor := some "#FFFFFF",
        size := some ⟨.px 16, .full⟩, padding := some ⟨0, .negativeZero, 0, 0⟩ }
    let w : Widget :=
      { id := "3:4", name := "b", kind := .text, backgroundColor := some " ffffff",
        size := some ⟨.px 16.0000005, .full⟩ }
    AllFinite v.numbers ∧ AllFinite w.numbers ∧ (ofWidget v).className = (ofWidget w).className
      ∧ (ofWidget v).inline.Perm (ofWidget w).inline ∧ SameAttributes v w := by
  intro v w
  have hv : AllFinite v.numbers := by
    unfold AllFinite
    decide +kernel
  have hw : AllFinite w.numbers := by
    unfold AllFinite
    decide +kernel
  have hclass : (ofWidget v).className = (ofWidget w).className := by decide +kernel
  have hinline : (ofWidget v).inline.Perm (ofWidget w).inline := by
    have hempty : (ofWidget v).inline.isEmpty = true ∧ (ofWidget w).inline.isEmpty = true := by
      decide +kernel
    rw [List.isEmpty_iff.mp hempty.1, List.isEmpty_iff.mp hempty.2]
  exact ⟨hv, hw, hclass, hinline, sameAttributes_of_style_eq hv hw hclass hinline⟩

end Style

end Handoff
