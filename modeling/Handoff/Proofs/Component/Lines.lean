import Handoff.Proofs.Markup.Component
import Handoff.Proofs.Markup.Lines
import Handoff.Proofs.Visits

/-!
# The lines of a component

Every line in the source of a component belongs to one element (`Component.ownedLines`).
An element takes one line if nothing inside it is written, and else the line of the tag
that opens it, the lines of what is inside, and the line of the tag that closes it. It
starts two columns further to the right for each level (`Component.forall₂_isText`),
whatever its id, its text and its style are. So how many lines there are depends on
nothing but the shape of the component and on its placeholders, and at another column
the lines are the same after blanks (`Component.emit_lines`).
-/

namespace Handoff

/-- What a line has of an element. -/
inductive LinePart where
  /-- The whole element. -/
  | whole
  /-- The tag that opens it. -/
  | opening
  /-- The tag that closes it. -/
  | closing
  deriving DecidableEq, Repr

/-- The element that a line belongs to. -/
structure OwnedLine where
  /-- The component that is written as the element. -/
  element : Component
  /-- How deep it is. -/
  depth : Nat
  /-- What the line has of it. -/
  part : LinePart

namespace Component

/-! ### Elements and their lines -/

mutual
/-- The lines of a component at `depth`: one if nothing inside is written, and else one before and one
after the lines of what is inside. -/
def ownedLinesFrom (depth : Nat) : Component → List OwnedLine
  | ⟨w, children⟩ =>
    if w.omitted || children.isEmpty then [⟨⟨w, children⟩, depth, .whole⟩]
    else ⟨⟨w, children⟩, depth, .opening⟩ :: ownedLinesOfAllFrom (depth + 1) children
      ++ [⟨⟨w, children⟩, depth, .closing⟩]
/-- The lines of components one after the other. -/
def ownedLinesOfAllFrom (depth : Nat) : List (Tree Widget) → List OwnedLine
  | [] => []
  | c :: cs => ownedLinesFrom depth c ++ ownedLinesOfAllFrom depth cs
end

/-- The lines of a component, each with its element. -/
def ownedLines (c : Component) : List OwnedLine := c.ownedLinesFrom 0

mutual
/-- How many lines a component takes, said by its shape and by which of its widgets are omitted. -/
def lineCount : Tree Bool → Nat
  | ⟨omitted, children⟩ => if omitted || children.isEmpty then 1 else 2 + lineCountAll children
/-- How many lines components take one after the other. -/
def lineCountAll : List (Tree Bool) → Nat
  | [] => 0
  | t :: ts => lineCount t + lineCountAll ts
end

theorem ownedLinesOfAllFrom_eq_flatMap (depth : Nat) (cs : List (Tree Widget)) :
    ownedLinesOfAllFrom depth cs = cs.flatMap (ownedLinesFrom depth) := by
  induction cs with
  | nil => rfl
  | cons c cs ih => simp [ownedLinesOfAllFrom, ih]

end Component

namespace OwnedLine

/-- The tag of the element. -/
def tag (l : OwnedLine) : String := (Primitive.ofComponent l.element).tag

/-- The text begins with the tag that opens the element, at the column, and has its id. -/
def Opens (l : OwnedLine) (column : Nat) (text : String) : Prop :=
  ∃ rest, text = Markup.blanks column ++ "<" ++ l.tag ++ " testID="
    ++ Markup.attributeText l.element.value.id ++ rest

/-- The text is what the line has of the element, where the whole component starts at `column`. -/
def IsText (column : Nat) (l : OwnedLine) (text : String) : Prop :=
  match l.part with
  | .whole => l.Opens (column + 2 * l.depth) text ∧ l.element.emit (column + 2 * l.depth) = .ok text
  | .opening => l.Opens (column + 2 * l.depth) text
  | .closing => text = Markup.blanks (column + 2 * l.depth) ++ "</" ++ l.tag ++ ">"

theorem opens_startTag (l : OwnedLine) (column : Nat) {attributes : List Attribute}
    (h : attributes.head? = some ⟨"testID", .text l.element.value.id⟩) (rest : String) :
    l.Opens column (Markup.blanks column ++ "<" ++ l.tag ++ Markup.attributesSource attributes ++ rest) := by
  obtain ⟨more, rfl⟩ := List.head?_eq_some_iff.mp h
  refine ⟨Markup.attributesSource more ++ rest, ?_⟩
  simp [Markup.attributesSource, Markup.attributeSource, String.append_assoc]

end OwnedLine

namespace Component

/-! ### From markups to lines -/

/-- The markup takes one line. -/
inductive OnOneLine (tag : String) (attributes : List Attribute) : Markup → Prop where
  /-- There is nothing inside. -/
  | closed : OnOneLine tag attributes (.closed tag attributes)
  /-- There is a text inside. -/
  | text (content : String) : OnOneLine tag attributes (.text tag attributes content)

/-- The markup of a component takes one line if nothing inside is written, and else it has the markups
of what is inside. The first attribute is the id. -/
theorem forms_of_markup {w : Widget} {children : List (Tree Widget)} {m : Markup}
    (h : markup ⟨w, children⟩ = .ok m) : ∃ opening, opening.head? = some ⟨"testID", .text w.id⟩
      ∧ if w.omitted || children.isEmpty then
        OnOneLine (Primitive.ofComponent ⟨w, children⟩).tag opening m
      else ∃ ms, children.mapM markup = .ok ms
        ∧ m = .parent (Primitive.ofComponent ⟨w, children⟩).tag opening ms := by
  rcases cases_of_markup h with homitted | ⟨hshown, hkind, rfl⟩ | ⟨hshown, hkind, -⟩
  · rw [markup, if_pos homitted] at h
    obtain rfl := Except.ok.inj h
    refine ⟨placeholderAttributes w, rfl, ?_⟩
    rw [homitted]
    exact .closed
  · have hprimitive := (ofComponent_eq_text_iff [] hshown).mpr hkind
    refine ⟨attributes w .text, rfl, ?_⟩
    rw [hshown, hprimitive]
    cases htext : w.text with
    | none =>
      obtain rfl : _ = m := by simpa [markup, hshown, hprimitive, htext] using h
      exact .closed
    | some content =>
      by_cases hcontent : content = ""
      · obtain rfl : _ = m := by simpa [markup, hshown, hprimitive, htext, hcontent] using h
        exact .closed
      · obtain rfl : _ = m := by simpa [markup, hshown, hprimitive, htext, hcontent] using h
        exact .text content
  · have hprimitive := mt (ofComponent_eq_text_iff children hshown).mp hkind
    refine ⟨attributes w (Primitive.ofComponent ⟨w, children⟩), rfl, ?_⟩
    rw [hshown, Bool.false_or]
    by_cases hnil : children = []
    · subst hnil
      obtain rfl : _ = m := by simpa [markup, hshown, hprimitive] using h
      exact .closed
    · have hempty : children.isEmpty = false := by simpa using hnil
      have hparent : (children.mapM markup).map (Markup.parent (Primitive.ofComponent ⟨w, children⟩).tag
          (attributes w (Primitive.ofComponent ⟨w, children⟩))) = .ok m := by
        simpa [markup, hshown, hprimitive, hempty, markupOfAll_eq_mapM] using h
      rw [hempty]
      cases hms : children.mapM markup with
      | error e => simp [hms, Except.map] at hparent
      | ok ms =>
        rw [hms] at hparent
        exact ⟨ms, rfl, (Except.ok.inj hparent).symm⟩

theorem OnOneLine.lines {tag : String} {attributes : List Attribute} {m : Markup}
    (h : OnOneLine tag attributes m) : ∃ rest, ∀ column, m.lines column
      = [Markup.blanks column ++ "<" ++ tag ++ Markup.attributesSource attributes ++ rest] := by
  cases h with
  | closed => exact ⟨" />", fun column => rfl⟩
  | text content =>
    refine ⟨">" ++ Markup.contentText content ++ "</" ++ tag ++ ">", fun column => ?_⟩
    simp only [Markup.lines, String.append_assoc]

/-- The lines of components one after the other belong to elements if those of each do. -/
theorem forall₂_isText_all {cs : List (Tree Widget)} {ms : List Markup} {column depth indent : Nat}
    (hms : cs.mapM markup = .ok ms)
    (h : ∀ c ∈ cs, ∀ m, markup c = .ok m →
      List.Forall₂ (OwnedLine.IsText column) (ownedLinesFrom depth c) (m.lines indent)) :
    List.Forall₂ (OwnedLine.IsText column) (ownedLinesOfAllFrom depth cs)
      (Markup.linesOfAll indent ms) := by
  induction cs generalizing ms with
  | nil =>
    cases hms
    exact .nil
  | cons c cs ih =>
    obtain ⟨m, more, hm, hmore, rfl⟩ := mapM_cons_eq_ok_iff.mp hms
    obtain ⟨hc, hcs⟩ := List.forall_mem_cons.mp h
    exact List.rel_append (hc m hm) (ih hmore hcs)

/-- Each line of a markup has what it should have of its element, at the column of that element. -/
theorem forall₂_isText {c : Component} {m : Markup} (h : c.markup = .ok m) (column depth : Nat) :
    List.Forall₂ (OwnedLine.IsText column) (c.ownedLinesFrom depth) (m.lines (column + 2 * depth)) := by
  induction c using Tree.children_induction generalizing m depth with
  | node w children ih =>
    obtain ⟨opening, hid, hform⟩ := forms_of_markup h
    have hopens : ∀ part rest, (OwnedLine.mk ⟨w, children⟩ depth part).Opens (column + 2 * depth)
        (Markup.blanks (column + 2 * depth) ++ "<" ++ (Primitive.ofComponent ⟨w, children⟩).tag
          ++ Markup.attributesSource opening ++ rest) :=
      fun part rest => OwnedLine.opens_startTag _ _ hid rest
    rw [ownedLinesFrom]
    split at hform
    · next hsingle =>
      obtain ⟨rest, hlines⟩ := hform.lines
      rw [if_pos hsingle, hlines]
      refine .cons ⟨hopens .whole rest, ?_⟩ .nil
      rw [emit, h, Except.map, Markup.source, hlines, String.intercalate_singleton]
    · next hinside =>
      obtain ⟨ms, hms, rfl⟩ := hform
      have hchildren := forall₂_isText_all hms fun c hc m hm => ih c hc hm (depth + 1)
      have hopening : OwnedLine.IsText column ⟨⟨w, children⟩, depth, .opening⟩ _ := hopens .opening ">"
      have hclosing : OwnedLine.IsText column ⟨⟨w, children⟩, depth, .closing⟩ _ := rfl
      rw [if_neg hinside, Markup.lines]
      exact List.rel_append (.cons hopening hchildren) (.cons hclosing .nil)

/-! ### The lines of a source -/

theorem length_ownedLinesOfAllFrom {depth : Nat} {cs : List (Tree Widget)}
    (h : ∀ c ∈ cs, (ownedLinesFrom depth c).length = lineCount (c.map (·.omitted))) :
    (ownedLinesOfAllFrom depth cs).length = lineCountAll (Tree.mapAll (·.omitted) cs) := by
  induction cs with
  | nil => rfl
  | cons c cs ih =>
    obtain ⟨hc, hcs⟩ := List.forall_mem_cons.mp h
    rw [ownedLinesOfAllFrom, List.length_append, hc, ih hcs, Tree.mapAll, lineCountAll]

theorem length_ownedLinesFrom (depth : Nat) (c : Component) :
    (c.ownedLinesFrom depth).length = lineCount (c.map (·.omitted)) := by
  induction c using Tree.children_induction generalizing depth with
  | node w children ih =>
    have hchildren := length_ownedLinesOfAllFrom fun c hc => ih c hc (depth + 1)
    have hempty : (Tree.mapAll (·.omitted) children).isEmpty = children.isEmpty := by
      rw [Tree.mapAll_eq_map, List.isEmpty_map]
    rw [ownedLinesFrom, Tree.map, lineCount, hempty]
    split
    · rfl
    · rw [List.length_append, List.length_cons, hchildren, List.length_singleton]
      omega

/-- Elements start in visiting order, each on a line of its own. Placeholders have none inside. -/
theorem map_starts_ownedLinesFrom (depth : Nat) (c : Component) :
    ((c.ownedLinesFrom depth).filter fun l => l.part ≠ .closing).map
        (fun l => (l.element.value, l.depth))
      = (c.cut (·.omitted)).visitsFrom depth := by
  induction c using Tree.children_induction generalizing depth with
  | node w children ih =>
    rw [Tree.cut, Tree.visitsFrom_node, ownedLinesFrom]
    split
    · next hsingle =>
      have hnone : (if w.omitted then [] else Tree.cutAll (·.omitted) children) = [] := by
        rcases Bool.or_eq_true_iff.mp hsingle with homitted | hempty
        · rw [if_pos homitted]
        · rw [List.isEmpty_iff.mp hempty, Tree.cutAll, ite_self]
      rw [hnone]
      rfl
    · next hinside =>
      obtain ⟨hshown, -⟩ := Bool.or_eq_false_iff.mp (Bool.eq_false_iff.mpr hinside)
      have hchildren : ((ownedLinesOfAllFrom (depth + 1) children).filter
            fun l => l.part ≠ .closing).map (fun l => (l.element.value, l.depth))
          = (children.map (Tree.cut (·.omitted))).flatMap (Tree.visitsFrom (depth + 1)) := by
        rw [ownedLinesOfAllFrom_eq_flatMap, List.filter_flatMap, List.map_flatMap, List.flatMap_map]
        exact List.flatMap_congr fun c hc => ih c hc (depth + 1)
      rw [hshown, if_neg Bool.false_ne_true, Tree.cutAll_eq_map, ← hchildren, List.filter_append,
        List.filter_cons_of_pos (by simp), List.filter_cons_of_neg (by simp), List.filter_nil,
        List.append_nil, List.map_cons]

/-- **The lines of a source are those of its elements**, at any column. Where the component starts
further to the right, the blanks in front are all that changes. Each line belongs to one element and
starts at the column of that element, and no text or style makes more lines of one. -/
theorem emit_lines {c : Component} {start : Nat} {text : String} (h : c.emit start = .ok text) :
    ∃ flat, c.emit 0 = .ok flat
      ∧ (∀ column, ∃ source, c.emit column = .ok source
        ∧ Markup.linesOf source = (Markup.linesOf flat).map (Markup.blanks column ++ ·)
        ∧ List.Forall₂ (OwnedLine.IsText column) c.ownedLines (Markup.linesOf source)
        ∧ (Markup.linesOf source).length = lineCount (c.map (·.omitted)))
      ∧ (c.ownedLines.filter fun l => l.part ≠ .closing).map (fun l => (l.element.value, l.depth))
        = (c.cut (·.omitted)).visits := by
  obtain ⟨m, hm, hemit⟩ : ∃ m, c.markup = .ok m ∧ ∀ column, c.emit column = .ok (m.source column) := by
    cases hm : c.markup with
    | error e => simp [emit, hm, Except.map] at h
    | ok m => exact ⟨m, rfl, fun column => by rw [emit, hm, Except.map]⟩
  obtain ⟨n, hn, hnamed, -⟩ := hasMarkup_of_markup hm
  obtain rfl := Except.ok.inj (hn.symm.trans hm)
  have hlines : ∀ column, Markup.linesOf (n.source column) = n.lines column :=
    fun column => Markup.linesOf_source hnamed column
  refine ⟨_, hemit 0, fun column => ⟨_, hemit column, ?_⟩, map_starts_ownedLinesFrom 0 c⟩
  have howned : List.Forall₂ (OwnedLine.IsText column) c.ownedLines (n.lines column) :=
    forall₂_isText hm column 0
  rw [hlines, hlines]
  refine ⟨Markup.lines_add column 0 n, howned, ?_⟩
  rw [← howned.length_eq]
  exact length_ownedLinesFrom 0 c

/-- A button with line feeds in its id, its text, its font and its color, and a placeholder with a box
inside. -/
theorem emit_lines_button :
    let label : Component := .leaf
      { id := "1\n2", name := "", kind := .text, text := some "a\nb",
        typography := some { alignment := .left, fontFamily := some "In\nter" } }
    let hidden : Component := ⟨{ id := "h", name := "", kind := .frame, omitted := true }, [label]⟩
    let c : Component :=
      ⟨{ id := "1:1", name := "", kind := .button, backgroundColor := some "re\nd" }, [label, hidden]⟩
    ∃ flat source, c.emit 0 = .ok flat ∧ c.emit 4 = .ok source
      ∧ Markup.linesOf source = (Markup.linesOf flat).map ("    " ++ ·)
      ∧ (Markup.linesOf source).length = 4
      ∧ c.ownedLines.map (fun l => (l.element.value.id, l.depth, l.part))
        = [("1:1", 0, .opening), ("1\n2", 1, .whole), ("h", 1, .whole), ("1:1", 0, .closing)] := by
  intro label hidden c
  have h : c.emit 0 = .ok _ := rfl
  obtain ⟨flat, hflat, hlines, -⟩ := emit_lines h
  obtain ⟨source, hsource, hshifted, -, hcount⟩ := hlines 4
  exact ⟨flat, source, hflat, hsource, hshifted, hcount, rfl⟩

end Component

end Handoff
