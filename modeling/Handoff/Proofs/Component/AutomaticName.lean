import Handoff.Proofs.Component.Texts
import Handoff.Proofs.Project.Pictures
import Handoff.Proofs.Token.Name
import Mathlib.Data.Bool.AllAny

/-!
# Automatic names

A design tool names a new layer after its kind and numbers it, as in `Frame 7` or
`Boolean operation 3`. The words that make a button are looked for in these names
as in any other, and what is found depends on the kind alone: a number has no
letters, so a word in the name is a word in the name of the kind
(`occurs_append_number`). There is one such kind. The letters `cta` are in the
middle of `rectangle`, and so a rectangle that nobody has renamed becomes a button,
whatever fills it, and its picture is not asked for. All other layers with
automatic names are pictures or frames by their fills alone
(`Node.convert_of_automaticName`).
-/

namespace Handoff

open Text

/-! ### Names -/

/-- Characters of ASCII are folded one by one. -/
theorem Text.fold_eq_map_toLower {s : List Char} (h : ∀ c ∈ s, c.toNat < 128) :
    fold s = s.map Char.toLower := by
  have hsigma : 'Σ' ∉ s := fun hmem => absurd (h _ hmem) (by decide)
  have hsmall : s.flatMap lowercase = s.flatMap fun c => [c.toLower] :=
    List.flatMap_congr fun c hc => if_pos (h c hc)
  rw [fold, foldFrom_eq_flatMap _ _ hsigma, hsmall, ← List.map_eq_flatMap]

theorem Text.toNat_lt_of_toLower {c : Char} (h : c.toLower.toNat < 128) : c.toNat < 128 := by
  by_contra hbig
  -- Only capital letters have a lowercase form of their own here.
  have hsame : c.toLower = c := by
    refine dif_neg fun hupper => hbig ?_
    have hle : c.val.toNat ≤ 90 := hupper.2
    exact Nat.lt_of_le_of_lt hle (by decide)
  rw [hsame] at h
  exact hbig h

/-- The words for a kind: its name in an export with blanks in it. -/
def LayerKind.words (k : LayerKind) : List Char := replace '_' ' ' k.name.toList

/-- What may stand behind the words: nothing, or a blank and digits. -/
inductive IsNumber : List Char → Prop where
  /-- The layer is not numbered. -/
  | none : IsNumber []
  /-- The layer is numbered. -/
  | some {digits : List Char} (hne : digits ≠ []) (hdigits : ∀ c ∈ digits, c.isDigit = true) :
    IsNumber (' ' :: digits)

/-- The layer is called by the words for its kind, in any letter case, and perhaps a number. -/
def Layer.HasAutomaticName (l : Layer) : Prop :=
  ∃ words number, l.name.toList = words ++ number
    ∧ words.map Char.toLower = l.kind.words.map Char.toLower ∧ IsNumber number

theorem IsNumber.eq_blank_or_digit {number : List Char} (h : IsNumber number) :
    ∀ c ∈ number, c = ' ' ∨ c.isDigit = true := by
  cases h with
  | none => exact List.forall_mem_nil _
  | some hne hdigits => exact List.forall_mem_cons.mpr ⟨.inl rfl, fun c hc => .inr (hdigits c hc)⟩

theorem IsNumber.notMem_of_isAlpha {number : List Char} (h : IsNumber number) {c : Char}
    (hc : c.isAlpha = true) : c ∉ number := by
  have hascii : ∀ n < 128, (Char.ofNat n).isAlpha = true →
      ¬(Char.ofNat n = ' ' ∨ (Char.ofNat n).isDigit = true) := by
    decide +kernel
  intro hmem
  exact holds_of_codes (P := fun c => c.isAlpha = true → ¬(c = ' ' ∨ c.isDigit = true)) hascii
    (toNat_lt_of_isAlphanum (Bool.or_eq_true_iff.mpr (.inl hc))) hc (h.eq_blank_or_digit c hmem)

/-- A number is its own lowercase form. -/
theorem IsNumber.toLower {number : List Char} (h : IsNumber number) :
    (∀ c ∈ number, c.toNat < 128) ∧ number.map Char.toLower = number := by
  have hascii : ∀ n < 128, (Char.ofNat n = ' ' ∨ (Char.ofNat n).isDigit = true) →
      (Char.ofNat n).toLower = Char.ofNat n := by
    decide +kernel
  have hcodes : ∀ c ∈ number, c.toNat < 128 := by
    intro c hc
    rcases h.eq_blank_or_digit c hc with rfl | hdigit
    · decide
    · exact toNat_lt_of_isAlphanum (Bool.or_eq_true_iff.mpr (.inr hdigit))
  refine ⟨hcodes, (List.map_congr_left fun c hc => ?_).trans (List.map_id _)⟩
  exact holds_of_codes (P := fun c => (c = ' ' ∨ c.isDigit = true) → c.toLower = c) hascii
    (hcodes c hc) (h.eq_blank_or_digit c hc)

/-- A word that ends in a letter is not found in a number. -/
theorem IsNumber.occurs_append {number : List Char} (h : IsNumber number) {word s : List Char}
    (hword : word.getLast?.any Char.isAlpha = true) : occurs word (s ++ number) = occurs word s := by
  obtain ⟨c, hlast, hc⟩ := (Option.any_eq_true _ _).mp hword
  rw [Bool.eq_iff_iff, occurs_iff_isInfix, occurs_iff_isInfix,
    isInfix_append_iff_left hlast (h.notMem_of_isAlpha hc)]

namespace Layer

/-- An automatic name in lowercase: the words for the kind, and perhaps a number. -/
theorem HasAutomaticName.fold_name {l : Layer} (h : l.HasAutomaticName) :
    ∃ number, IsNumber number ∧ fold l.name.toList = l.kind.words.map Char.toLower ++ number := by
  obtain ⟨words, number, hname, hwords, hnumber⟩ := h
  have hkinds : ∀ kind : LayerKind, ∀ c ∈ kind.words.map Char.toLower, c.toNat < 128 := by
    intro kind
    refine List.all_iff_forall_prop.mp ?_
    cases kind <;> decide
  have hcodes : ∀ c ∈ l.name.toList, c.toNat < 128 := by
    rw [hname, List.forall_mem_append]
    refine ⟨fun c hc => toNat_lt_of_toLower (hkinds l.kind _ ?_), hnumber.toLower.1⟩
    rw [← hwords]
    exact List.mem_map_of_mem hc
  refine ⟨number, hnumber, ?_⟩
  rw [fold_eq_map_toLower hcodes, hname, List.map_append, hwords, hnumber.toLower.2]

/-- **One kind has a word that makes a button** in its automatic names. -/
theorem HasAutomaticName.any_occurs_iff {l : Layer} (h : l.HasAutomaticName) :
    (Classifier.buttonKeywords.any fun keyword => occurs keyword.toList (fold l.name.toList)) = true
      ↔ l.kind = .rectangle := by
  obtain ⟨number, hnumber, hfold⟩ := h.fold_name
  have hletters : ∀ keyword ∈ Classifier.buttonKeywords,
      keyword.toList.getLast?.any Char.isAlpha = true := by
    decide
  have hkinds : ∀ kind : LayerKind, (∃ keyword ∈ Classifier.buttonKeywords,
      occurs keyword.toList (kind.words.map Char.toLower) = true) ↔ kind = .rectangle := by
    intro kind
    cases kind <;> decide
  rw [hfold, List.any_eq_true, ← hkinds]
  refine exists_congr fun keyword => and_congr_right fun hkeyword => ?_
  rw [hnumber.occurs_append (hletters keyword hkeyword)]

theorem HasAutomaticName.classify_eq {l : Layer} (h : l.HasAutomaticName) (htext : l.kind ≠ .text)
    (conversion : ConversionOptions) : Classifier.standard.classify conversion l =
      if l.kind = .rectangle ∧ conversion.detectButtons = true then .button
      else if l.fills.any (·.kind == .image) then .image
      else .frame := by
  rw [Classifier.classify_standard, if_neg htext]
  simp only [h.any_occurs_iff, and_comm]

/-- Only a layer that becomes a picture keeps its picture. -/
theorem imageRef_widget {conversion : ConversionOptions} {l : Layer}
    (hshown : l.isOmitted conversion = false) (classifier : Classifier) :
    (l.widget conversion classifier).imageRef
      = if classifier.classify conversion l = .image then l.imageRef? else none := by
  rw [widget, if_neg (Bool.eq_false_iff.mp hshown)]

end Layer

/-! ### Designs -/

namespace Node

variable (conversion : ConversionOptions)

/-- A layer that is converted as a picture is a picture in the source, and its picture is asked for. -/
theorem picture_of_classify {root : Node} {p : Place Layer} (hp : p ∈ keptPlaces conversion root)
    (hshown : p.tree.value.isOmitted conversion = false)
    (himage : Classifier.standard.classify conversion p.tree.value = .image) :
    (Primitive.ofComponent (convert conversion .standard p.tree)).showsImage = true
      ∧ ∀ imageRef ∈ p.tree.value.imageRef?, ∀ scale,
        ⟨p.tree.value.id, imageRef, scale⟩ ∈ (convert conversion .standard root).assetRequests scale := by
  obtain ⟨⟨l, children⟩, above⟩ := p
  constructor
  · rw [convert_node, if_neg (Bool.eq_false_iff.mp hshown)]
    simp only [Primitive.ofComponent, Layer.omitted_widget, hshown,
      l.kind_widget conversion .standard hshown, himage, Bool.false_eq_true, if_false]
    split <;> rfl
  · intro imageRef href scale
    rw [assetRequests_convert]
    refine List.mem_filterMap.mpr ⟨_, hp, ?_⟩
    rw [Layer.imageRef_widget hshown, if_pos himage, Option.mem_def.mp href]
    rfl

/-- A layer that is converted as a button is one in the source, without a picture. -/
theorem pressable_of_classify {n : Node} (hshown : n.value.isOmitted conversion = false)
    (hbutton : Classifier.standard.classify conversion n.value = .button) :
    Primitive.ofComponent (convert conversion .standard n) = .pressable
      ∧ (convert conversion .standard n).value.imageRef = none := by
  obtain ⟨l, children⟩ := n
  rw [convert_node, if_neg (Bool.eq_false_iff.mp hshown)]
  constructor
  · simp only [Primitive.ofComponent, Layer.omitted_widget, hshown,
      l.kind_widget conversion .standard hshown, hbutton, Bool.false_eq_true, if_false]
  · rw [Layer.imageRef_widget hshown, hbutton, if_neg (by decide)]

/-- **Rectangles apart, a layer with an automatic name is what its fills make of it**: a picture
with an image among them, and its picture is asked for where the layer is shown; otherwise a frame. A
rectangle is a button where buttons are looked for, and then it has no picture. -/
theorem convert_of_automaticName {l : Layer} (hname : l.HasAutomaticName) (htext : l.kind ≠ .text) :
    (Classifier.standard.classify conversion l =
      if l.kind = .rectangle ∧ conversion.detectButtons = true then .button
      else if l.fills.any (·.kind == .image) then .image
      else .frame)
      ∧ ∀ root : Node, ∀ p ∈ keptPlaces conversion root, p.tree.value = l →
        l.isOmitted conversion = false →
        if l.kind = .rectangle ∧ conversion.detectButtons = true then
          Primitive.ofComponent (convert conversion .standard p.tree) = .pressable
            ∧ (convert conversion .standard p.tree).value.imageRef = none
        else l.fills.any (·.kind == .image) = true →
          (Primitive.ofComponent (convert conversion .standard p.tree)).showsImage = true
            ∧ ∀ imageRef ∈ l.imageRef?, ∀ scale,
              ⟨l.id, imageRef, scale⟩ ∈ (convert conversion .standard root).assetRequests scale := by
  have hclass := hname.classify_eq htext conversion
  refine ⟨hclass, fun root p hp hvalue hshown => ?_⟩
  subst hvalue
  split
  · next hrectangle =>
    rw [if_pos hrectangle] at hclass
    exact pressable_of_classify conversion hshown hclass
  · next hrectangle =>
    intro hfill
    rw [if_neg hrectangle, if_pos hfill] at hclass
    exact picture_of_classify conversion hp hshown hclass

/-- A page with an ellipse and a rectangle, both filled with pictures and both with automatic names. -/
theorem convert_of_automaticName_shapes :
    let filled (kind : LayerKind) (name : String) : Node := .leaf
      { id := name, name := name, kind := kind, fills := [{ kind := .image, imageRef := some "photo" }] }
    let page : Node := ⟨{ id := "0:1", name := "Page 1", kind := .canvas },
      [filled .ellipse "ellipse 3", filled .rectangle "Rectangle 12"]⟩
    (Primitive.ofComponent (convert {} .standard (filled .ellipse "ellipse 3"))).showsImage = true
      ∧ ⟨"ellipse 3", "photo", 2⟩ ∈ (convert {} .standard page).assetRequests 2
      ∧ Primitive.ofComponent (convert {} .standard (filled .rectangle "Rectangle 12")) = .pressable
      ∧ (convert {} .standard (filled .rectangle "Rectangle 12")).value.imageRef = none := by
  intro filled page
  have hellipse : (filled .ellipse "ellipse 3").value.HasAutomaticName :=
    ⟨"ellipse".toList, " 3".toList, by decide, by decide,
      .some (List.cons_ne_nil _ _) (List.all_eq_true.mp (by decide))⟩
  have hrectangle : (filled .rectangle "Rectangle 12").value.HasAutomaticName :=
    ⟨"Rectangle".toList, " 12".toList, by decide, by decide,
      .some (List.cons_ne_nil _ _) (List.all_eq_true.mp (by decide))⟩
  have hkept : ∀ n ∈ page.children, ⟨n, [page.value]⟩ ∈ keptPlaces {} page := by
    intro n hn
    have hplaces : page.places = ⟨page, []⟩ :: page.children.map fun n => ⟨n, [page.value]⟩ := rfl
    refine List.mem_filter.mpr ⟨?_, decide_eq_true (.inr ?_)⟩
    · rw [hplaces]
      exact List.mem_cons_of_mem _ (List.mem_map_of_mem hn)
    · exact List.forall_mem_singleton.mpr (by decide)
  have hpicture := (convert_of_automaticName {} hellipse (by decide)).2 page _
    (hkept _ List.mem_cons_self) rfl rfl
  have hbutton := (convert_of_automaticName {} hrectangle (by decide)).2 page _
    (hkept _ (List.mem_cons_of_mem _ List.mem_cons_self)) rfl rfl
  rw [if_neg (by decide)] at hpicture
  rw [if_pos (by decide)] at hbutton
  obtain ⟨hshows, hasked⟩ := hpicture rfl
  exact ⟨hshows, hasked "photo" rfl 2, hbutton⟩

/-- A rectangle with an automatic name and a picture is no picture, and its picture is not asked for. -/
theorem not_image_of_automaticName :
    let l : Layer := { id := "1:1", name := "Rectangle 12", kind := .rectangle,
                       fills := [{ kind := .image, imageRef := some "photo" }] }
    l.HasAutomaticName ∧ l.kind ≠ .text ∧ l.fills.any (·.kind == .image) = true
      ∧ Classifier.standard.classify {} l ≠ .image
      ∧ (convert {} .standard (.leaf l)).assetRequests 2 = [] := by
  intro l
  have hname : l.HasAutomaticName :=
    ⟨"Rectangle".toList, " 12".toList, by decide, by decide,
      .some (List.cons_ne_nil _ _) (List.all_eq_true.mp (by decide))⟩
  exact ⟨hname, by decide, rfl, by decide +kernel, by decide +kernel⟩

end Node

end Handoff
