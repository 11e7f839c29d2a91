import Handoff.Proofs.Markup.Reader

/-!
# The source of an element is read back

The source of an element is the text of its pieces: a tag, a text or a break of
a line each (`broken_lines`). Every piece is read whatever follows it that a
source has there (`readsParts_pieces`), and the pieces of an element, taken one
after the other, put that element on those that are still open
(`foldlM_step_pieces`). So a source is read back as the one element that was
written (`read?_source`), whatever characters its texts and values have, as long
as tags and attributes are named by words (`WellNamed`).
-/

namespace Handoff

open Handoff.Parser

/-- A name of letters and digits. -/
def IsWord (s : String) : Prop := s.toList ≠ [] ∧ s.toList.all Char.isAlphanum = true

instance (s : String) : Decidable (IsWord s) := inferInstanceAs (Decidable (_ ∧ _))

/-- Every tag and every attribute is named by a word, and no text is empty. -/
inductive Markup.WellNamed : Markup → Prop where
  /-- There is nothing inside. -/
  | closed {tag : String} {attributes : List Attribute} (htag : IsWord tag)
      (hnames : ∀ a ∈ attributes, IsWord a.name) : WellNamed (.closed tag attributes)
  /-- There is a text inside. -/
  | text {tag : String} {attributes : List Attribute} {content : String} (htag : IsWord tag)
      (hnames : ∀ a ∈ attributes, IsWord a.name) (hcontent : content ≠ "") :
      WellNamed (.text tag attributes content)
  /-- There are elements inside. -/
  | parent {tag : String} {attributes : List Attribute} {children : List Markup} (htag : IsWord tag)
      (hnames : ∀ a ∈ attributes, IsWord a.name) (hchildren : ∀ m ∈ children, m.WellNamed) :
      WellNamed (.parent tag attributes children)

namespace Element

/-! ### What is written -/

/-- An attribute as a script has it. -/
def named (a : Attribute) : String × Script.Value :=
  (a.name, match a.value with
    | .text s => .string s
    | .expression v => .ofJson v)

mutual
/-- The element that is written. -/
def ofMarkup : Markup → Element
  | .closed tag attributes => .tagged tag (attributes.map named) []
  | .text tag attributes content => .tagged tag (attributes.map named) [.text content]
  | .parent tag attributes children => .tagged tag (attributes.map named) (ofAll children)
/-- `ofMarkup` on each element. -/
def ofAll : List Markup → List Element
  | [] => []
  | m :: ms => ofMarkup m :: ofAll ms
end

/-- The text of a tag up to where it ends. -/
def startText (tag : String) (attributes : List Attribute) : List Char :=
  '<' :: (tag.toList ++ attributes.flatMap fun a => (Markup.attributeSource a).toList)

/-- The text of a tag that closes an element. -/
def endText (tag : String) : List Char := '<' :: '/' :: (tag.toList ++ ['>'])

/-- A break of a line and the blanks after it. -/
def layoutText (indent : Nat) : List Char := '\n' :: (Markup.blanks indent).toList

mutual
/-- The pieces of an element that starts at column `indent`, each with its text. -/
def pieces (indent : Nat) : Markup → List (List Char × Piece)
  | .closed tag attributes =>
    [(startText tag attributes ++ [' ', '/', '>'], .single tag (attributes.map named))]
  | .text tag attributes content =>
    [(startText tag attributes ++ ['>'], .opening tag (attributes.map named)),
      ((Markup.contentText content).toList, .content content), (endText tag, .closing tag)]
  | .parent tag attributes children =>
    (startText tag attributes ++ ['>'], .opening tag (attributes.map named))
      :: piecesOfAll (indent + 2) children
        ++ [(layoutText indent, .layout), (endText tag, .closing tag)]
/-- The pieces of elements one after the other, each on lines of its own. -/
def piecesOfAll (indent : Nat) : List Markup → List (List Char × Piece)
  | [] => []
  | m :: ms => (layoutText indent, .layout) :: (pieces indent m ++ piecesOfAll indent ms)
end

/-! ### Lines -/

theorem toList_attributesSource (attributes : List Attribute) :
    (Markup.attributesSource attributes).toList
      = attributes.flatMap fun a => (Markup.attributeSource a).toList := by
  simp [Markup.attributesSource, String.toList_join, List.flatMap_map]

mutual
/-- The lines of an element, each after a break, are the text of its pieces after a break. -/
theorem broken_lines (indent : Nat) : (m : Markup) →
    broken (m.lines indent) = layoutText indent ++ written (pieces indent m)
  | .closed tag attributes => by
    simp [Markup.lines, pieces, layoutText, startText, toList_attributesSource, broken]
  | .text tag attributes content => by
    simp [Markup.lines, pieces, layoutText, startText, endText, toList_attributesSource, broken]
  | .parent tag attributes children => by
    have hchildren := broken_linesOfAll (indent + 2) children
    simp [Markup.lines, pieces, layoutText, startText, endText, toList_attributesSource, hchildren]
    simp [broken]
/-- `broken_lines` on elements one after the other. -/
theorem broken_linesOfAll (indent : Nat) : (ms : List Markup) →
    broken (Markup.linesOfAll indent ms) = written (piecesOfAll indent ms)
  | [] => rfl
  | m :: ms => by
    simp [Markup.linesOfAll, piecesOfAll, broken_lines indent m, broken_linesOfAll indent ms]
end

theorem lines_ne_nil (indent : Nat) (m : Markup) : m.lines indent ≠ [] := by
  cases m <;> simp [Markup.lines]

/-- The source of an element is the text of its pieces, after blanks. -/
theorem toList_source (indent : Nat) (m : Markup) :
    (m.source indent).toList = (Markup.blanks indent).toList ++ written (pieces indent m) := by
  have hbroken := broken_lines indent m
  obtain ⟨l, lines, h⟩ := List.exists_cons_of_ne_nil (lines_ne_nil indent m)
  rw [h, broken_cons, layoutText, List.cons_append] at hbroken
  rw [Markup.source, h, toList_intercalate_cons]
  exact List.tail_eq_of_cons_eq hbroken

/-! ### Reading the pieces -/

theorem word_run {s : String} (hs : IsWord s) (rest : List Char)
    (hrest : Stops Char.isAlphanum rest) : word (s.toList ++ rest) = some (s, rest) := by
  rw [word, bind_run (takeWhile1_run hs.1 (List.all_eq_true.mp hs.2) hrest), String.ofList_toList]
  rfl

/-- A string expression in braces is read. -/
theorem container_quote (s : String) (rest : List Char) :
    container ((Markup.braced (Json.quote s)).toList ++ rest) = some (.string s, rest) := by
  have hexpression : Script.expression ((Json.quote s).toList ++ '\x7d' :: rest) = none := by
    simp only [Json.quote, String.toList_ofList, List.cons_append]
    exact Script.value_stops _ (by decide) rfl rfl _
  have hstring := Json.stringLiteral_quote s ('\x7d' :: rest)
  simp [container, Markup.braced, hexpression, hstring]

/-- A literal in braces is read. -/
theorem container_literal (v : Json) (rest : List Char) :
    container ((Markup.braced (Script.literal v)).toList ++ rest) = some (.ofJson v, rest) := by
  have hstop : Stops Json.continuesToken ('\x7d' :: rest) := by
    rw [stops_cons]
    rfl
  simp [container, Markup.braced, Script.expression_literal v hstop]

theorem quoted_braced (s : String) (rest : List Char) :
    quoted ((Markup.braced s).toList ++ rest) = none := by
  simp [quoted, Markup.braced]

/-- A text is read as the value of an attribute. -/
theorem quoted_or_container_attributeText (s : String) (rest : List Char) :
    (quoted <|> container) ((Markup.attributeText s).toList ++ rest) = some (.string s, rest) := by
  rw [orElse_apply, Markup.attributeText]
  split
  · next hplain =>
    have hchars : ∀ c ∈ s.toList, c ≠ '"' ∧ c ≠ '&' := by
      intro c hc
      have := List.all_eq_true.mp hplain c hc
      simp only [Bool.and_eq_true, bne_iff_ne] at this
      exact ⟨this.1.1.1, this.2⟩
    have hrun : takeWhile (fun c => c ≠ '"') (s.toList ++ '"' :: rest)
        = some (s.toList, '"' :: rest) :=
      takeWhile_run (fun c hc => by simpa using (hchars c hc).1) (by simp)
    have hamp : '&' ∉ s.toList := fun h => (hchars '&' h).2 rfl
    have hquoted : quoted ('"' :: (s.toList ++ '"' :: rest)) = some (.string s, rest) := by
      rw [quoted, bind_run (by rw [char_cons]; exact if_pos rfl), bind_run hrun,
        bind_run (by rw [char_cons]; exact if_pos rfl), if_neg hamp, String.ofList_toList]
      rfl
    simp [hquoted]
  · rw [quoted_braced, container_quote]
    rfl

/-- An attribute is read. -/
theorem namedValue_attributeSource {a : Attribute} (ha : IsWord a.name) (rest : List Char) :
    namedValue ((Markup.attributeSource a).toList ++ rest) = some (named a, rest) := by
  obtain ⟨name, value⟩ := a
  have hvalue : ∀ source v, (quoted <|> container) (source ++ rest) = some (v, rest) →
      namedValue (' ' :: (name.toList ++ '=' :: (source ++ rest))) = some ((name, v), rest) := by
    intro source v h
    have hword := word_run ha ('=' :: (source ++ rest)) (by simp)
    rw [namedValue, bind_run (by rw [char_cons]; exact if_pos rfl), bind_run hword,
      bind_run (by rw [char_cons]; exact if_pos rfl), bind_run h]
    rfl
  cases value with
  | text s =>
    have hread := hvalue _ _ (quoted_or_container_attributeText s rest)
    simpa [Markup.attributeSource, named] using hread
  | expression v =>
    have hcontainer : (quoted <|> container) ((Markup.braced (Script.literal v)).toList ++ rest)
        = some (.ofJson v, rest) := by
      rw [orElse_apply, quoted_braced, container_literal]
      rfl
    have hread := hvalue _ _ hcontainer
    simpa [Markup.attributeSource, named] using hread

theorem toList_attributeSource (a : Attribute) :
    ∃ cs, (Markup.attributeSource a).toList = ' ' :: cs := by
  simp [Markup.attributeSource]

/-- A tag is read up to where it ends. -/
theorem startTag_startText {tag : String} {attributes : List Attribute} (htag : IsWord tag)
    (hnames : ∀ a ∈ attributes, IsWord a.name) (rest : List Char)
    (hstop : Stops Char.isAlphanum rest) (hrest : namedValue rest = none) :
    startTag (startText tag attributes ++ rest) = tagEnd tag (attributes.map named) rest := by
  have hne : ∀ a ∈ attributes, (Markup.attributeSource a).toList ≠ [] := by
    intro a _
    obtain ⟨cs, h⟩ := toList_attributeSource a
    simp [h]
  have hattributes := many_flatMap (fun a => (Markup.attributeSource a).toList) named attributes hne
    (fun a ha => namedValue_attributeSource (hnames a ha)) hrest
  have hafter : Stops Char.isAlphanum
      (attributes.flatMap (fun a => (Markup.attributeSource a).toList) ++ rest) := by
    cases attributes with
    | nil => exact hstop
    | cons a attributes =>
      obtain ⟨cs, h⟩ := toList_attributeSource a
      simp [h]
  rw [startText, List.cons_append, List.append_assoc, startTag,
    bind_run (by rw [char_cons]; exact if_pos rfl), bind_run (word_run htag _ hafter),
    bind_run hattributes]

theorem piece_single {tag : String} {attributes : List Attribute} (htag : IsWord tag)
    (hnames : ∀ a ∈ attributes, IsWord a.name) (rest : List Char) :
    piece (startText tag attributes ++ [' ', '/', '>'] ++ rest)
      = some (.single tag (attributes.map named), rest) := by
  have hstart := startTag_startText htag hnames (' ' :: '/' :: '>' :: rest) (by simp) rfl
  rw [List.append_assoc, piece, orElse_apply]
  simp [hstart, tagEnd, Parser.text]

theorem piece_opening {tag : String} {attributes : List Attribute} (htag : IsWord tag)
    (hnames : ∀ a ∈ attributes, IsWord a.name) (rest : List Char) :
    piece (startText tag attributes ++ ['>'] ++ rest)
      = some (.opening tag (attributes.map named), rest) := by
  have hstart := startTag_startText htag hnames ('>' :: rest) (by simp) rfl
  rw [List.append_assoc, piece, orElse_apply]
  simp [hstart, tagEnd, Parser.text]

theorem piece_closing {tag : String} (htag : IsWord tag) (rest : List Char) :
    piece (endText tag ++ rest) = some (.closing tag, rest) := by
  have hword := word_run htag ('>' :: rest) (by simp)
  have hend : endTag (endText tag ++ rest) = some (.closing tag, rest) := by
    simp [endTag, endText, Parser.text, hword]
  have hstart : startTag (endText tag ++ rest) = none := rfl
  rw [piece, orElse_apply, orElse_apply, hstart, hend]
  rfl

/-- A break of a line is read with the blanks after it, before a tag. -/
theorem piece_layout (indent : Nat) (rest : List Char) :
    piece (layoutText indent ++ '<' :: rest) = some (.layout, '<' :: rest) := by
  have hblanks : takeWhile Script.isBlank ((Markup.blanks indent).toList ++ '<' :: rest)
      = some ((Markup.blanks indent).toList, '<' :: rest) :=
    takeWhile_run (by simp [Markup.blanks, Script.isBlank]) (by simp [Script.isBlank])
  simp [piece, layoutText, startTag, endTag, Parser.text, layout, hblanks, beginsMarkup]

/-- What begins neither a tag nor a line is a text. -/
theorem piece_text {c : Char} (h : c ∉ ['<', '\n', '\r']) (cs : List Char) :
    piece (c :: cs) = (bareText <|> textExpression) (c :: cs) := by
  simp only [List.mem_cons, List.not_mem_nil, or_false, not_or] at h
  simp [piece, startTag, endTag, layout, Parser.text, h, Ne.symm h.1]

theorem contentText_ne_nil {s : String} (hs : s ≠ "") : (Markup.contentText s).toList ≠ [] := by
  rw [Markup.contentText]
  split
  · simpa using hs
  · simp [Markup.braced]

/-- A text is read, before a tag. -/
theorem piece_content {s : String} (hs : s ≠ "") (rest : List Char) :
    piece ((Markup.contentText s).toList ++ '<' :: rest) = some (.content s, '<' :: rest) := by
  rw [Markup.contentText]
  split
  · next hplain =>
    have hchars : ∀ c ∈ s.toList, isBare c = true := by
      intro c hc
      simp only [Markup.isPlainContent, Bool.and_eq_true, Bool.not_eq_true', List.any_eq_false] at hplain
      have := hplain.1.1 c hc
      simpa [Markup.isMarkup, isBare, and_assoc] using this
    obtain ⟨c, cs, hl⟩ := List.exists_cons_of_ne_nil (by simpa using hs : s.toList ≠ [])
    have hc : c ∉ ['<', '\n', '\r'] := by
      have := hchars c (by simp [hl])
      simp only [isBare, decide_eq_true_eq] at this
      simp_all
    have hrun := takeWhile1_run (s := '<' :: rest) (by simpa using hs) hchars (by simp [isBare])
    have hbare : bareText (s.toList ++ '<' :: rest) = some (.content s, '<' :: rest) := by
      rw [bareText, bind_run hrun]
      simp [beginsMarkup]
    rw [hl, List.cons_append] at hbare ⊢
    rw [piece_text hc, orElse_apply, hbare]
    rfl
  · have hread := container_quote s ('<' :: rest)
    have hbrace : (Markup.braced (Json.quote s)).toList ++ '<' :: rest
        = '\x7b' :: ((Json.quote s).toList ++ '\x7d' :: '<' :: rest) := by simp [Markup.braced]
    rw [hbrace] at hread ⊢
    have hbare : bareText ('\x7b' :: ((Json.quote s).toList ++ '\x7d' :: '<' :: rest)) = none := rfl
    have hexpression : textExpression ('\x7b' :: ((Json.quote s).toList ++ '\x7d' :: '<' :: rest))
        = some (.content s, '<' :: rest) := by
      rw [textExpression, bind_run hread]
      rfl
    rw [piece_text (by decide), orElse_apply, hbare, hexpression]
    rfl

/-- The text of an element begins with a tag. -/
theorem written_pieces_cons (indent : Nat) (m : Markup) :
    ∃ cs, written (pieces indent m) = '<' :: cs := by
  cases m <;> simp [pieces, startText]

/-- The pieces of elements are read, if those of each are. -/
theorem readsParts_piecesOfAll {indent : Nat} {ms : List Markup}
    (h : ∀ m ∈ ms, ∀ rest, ReadsParts piece rest (pieces indent m)) (rest : List Char) :
    ReadsParts piece rest (piecesOfAll indent ms) := by
  induction ms with
  | nil => exact .nil
  | cons m ms ih =>
    obtain ⟨cs, hcs⟩ := written_pieces_cons indent m
    refine .cons (by simp [layoutText]) ?_
      (.append (h m (by simp) _) (ih fun m hm => h m (by simp [hm])))
    simpa [hcs] using piece_layout indent (cs ++ (written (piecesOfAll indent ms) ++ rest))

/-- Every piece of an element is read, whatever follows the element. -/
theorem readsParts_pieces {m : Markup} (hm : m.WellNamed) (indent : Nat) (rest : List Char) :
    ReadsParts piece rest (pieces indent m) := by
  induction hm generalizing indent rest with
  | closed htag hnames =>
    exact .cons (by simp) (piece_single htag hnames _) .nil
  | text htag hnames hcontent =>
    refine .cons (by simp) (piece_opening htag hnames _) (.cons (contentText_ne_nil hcontent) ?_
      (.cons (by simp [endText]) (piece_closing htag _) .nil))
    simpa [endText] using piece_content hcontent _
  | parent htag hnames _ ih =>
    have hchildren := readsParts_piecesOfAll fun m hm => ih m hm (indent + 2)
    refine .cons (by simp) (piece_opening htag hnames _) (.append (hchildren _) ?_)
    refine .cons (by simp [layoutText]) ?_ (.cons (by simp [endText]) (piece_closing htag _) .nil)
    simpa [endText] using piece_layout indent _

/-! ### Putting the pieces together -/

/-- The pieces of elements put them on the element opened last, if those of each do. -/
theorem foldlM_step_piecesOfAll {indent : Nat} {ms : List Markup}
    (h : ∀ m ∈ ms, ∀ stack,
      ((pieces indent m).map Prod.snd).foldlM step (.within stack) = some (put (ofMarkup m) stack))
    (o : Open) (outer : List Open) :
    ((piecesOfAll indent ms).map Prod.snd).foldlM step (.within (o :: outer))
      = some (.within ({ o with inside := o.inside ++ ofAll ms } :: outer)) := by
  induction ms generalizing o with
  | nil => simp [piecesOfAll, ofAll]
  | cons m ms ih =>
    simp [piecesOfAll, step, h m (by simp)]
    rw [put, ih fun m hm => h m (by simp [hm])]
    simp [ofAll]

/-- The pieces of an element put it where it goes. -/
theorem foldlM_step_pieces {m : Markup} (hm : m.WellNamed) (indent : Nat) (stack : List Open) :
    ((pieces indent m).map Prod.snd).foldlM step (.within stack) = some (put (ofMarkup m) stack) := by
  induction hm generalizing indent stack with
  | closed => simp [pieces, step, ofMarkup]
  | text => simp [pieces, step, put, ofMarkup]
  | parent _ _ _ ih =>
    have hchildren := foldlM_step_piecesOfAll fun m hm => ih m hm (indent + 2)
    simp [pieces, step, hchildren, ofMarkup]

/-- **The source of an element is read back**, at whatever column it starts. -/
theorem read?_source {m : Markup} (hm : m.WellNamed) (indent : Nat) :
    read? (m.source indent) = some (ofMarkup m) := by
  have hmany := many_parts (readsParts_pieces hm indent []) rfl
  obtain ⟨cs, hcs⟩ := written_pieces_cons indent m
  have hblanks : takeWhile (· = ' ') ((Markup.blanks indent).toList ++ written (pieces indent m))
      = some ((Markup.blanks indent).toList, written (pieces indent m)) :=
    takeWhile_run (by simp [Markup.blanks]) (by simp [hcs])
  have hrun : (takeWhile (· = ' ') *> many piece).run (m.source indent).toList
      = some ((pieces indent m).map Prod.snd) := by
    rw [List.append_nil] at hmany
    rw [toList_source, Parser.run, seqRight_apply, hblanks]
    simp [hmany]
  have hstep := foldlM_step_pieces hm indent []
  simp [read?, hrun, hstep, put]

end Element

end Handoff
