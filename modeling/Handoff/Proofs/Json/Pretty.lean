import Handoff.Proofs.Json.Induction
import Handoff.Proofs.Json.Number
import Handoff.Proofs.Json.Quoted
import Handoff.Proofs.Script.Reader

/-!
# Values over several lines are read back

A value of which all numbers are integers of 64 bits or finite, and in which no
object has a name twice, is read back from its text over several lines
(`read?_pretty_of_isRegular`), unless lists and objects are nested deeper in it than
the reader goes. Values without other numbers than integers are of this kind
(`IsPlain.isRegular`).

The induction is on the parts of the value. What it carries is that the text is
read wherever it ends and at whatever level it stands, since both change from a
value to its parts (`ReadsBack`).
-/

namespace Handoff.Json

open Handoff.Parser
open Handoff.Script (isBlank blanks_run continuesToken_blank IsPart IsClosing)

/-- All numbers in the value are integers of 64 bits, and the names in its objects are distinct. -/
inductive IsPlain : Json → Prop where
  /-- The value `null`. -/
  | null : IsPlain .null
  /-- A truth value. -/
  | bool (b : Bool) : IsPlain (.bool b)
  /-- An integer, with or without a sign. -/
  | integer {n : Int} (hmin : -0x8000000000000000 ≤ n) (hmax : n < 0x10000000000000000) :
      IsPlain (.integer n)
  /-- A text. -/
  | string (s : String) : IsPlain (.string s)
  /-- A list of such values. -/
  | array {items : List Json} (h : ∀ v ∈ items, IsPlain v) : IsPlain (.array items)
  /-- Such values under distinct names. -/
  | object {fields : List (String × Json)} (hnames : (fields.map Prod.fst).Nodup)
      (h : ∀ f ∈ fields, IsPlain f.2) : IsPlain (.object fields)

@[simp] theorem isPlain_string (s : String) : IsPlain (.string s) := .string s

@[simp] theorem isPlain_array_iff {items : List Json} :
    IsPlain (.array items) ↔ ∀ v ∈ items, IsPlain v :=
  ⟨fun | .array h => h, .array⟩

@[simp] theorem isPlain_object_iff {fields : List (String × Json)} :
    IsPlain (.object fields) ↔ (fields.map Prod.fst).Nodup ∧ ∀ f ∈ fields, IsPlain f.2 :=
  ⟨fun | .object hnames h => ⟨hnames, h⟩, fun h => .object h.1 h.2⟩

/-- All numbers in the value are integers of 64 bits or finite, and the names in its objects are
distinct. -/
inductive IsRegular : Json → Prop where
  /-- The value `null`. -/
  | null : IsRegular .null
  /-- A truth value. -/
  | bool (b : Bool) : IsRegular (.bool b)
  /-- An integer, with or without a sign. -/
  | integer {n : Int} (hmin : -0x8000000000000000 ≤ n) (hmax : n < 0x10000000000000000) :
      IsRegular (.integer n)
  /-- A finite number. -/
  | float {x : Binary64} (h : x.isFinite = true) : IsRegular (.float x)
  /-- A text. -/
  | string (s : String) : IsRegular (.string s)
  /-- A list of such values. -/
  | array {items : List Json} (h : ∀ v ∈ items, IsRegular v) : IsRegular (.array items)
  /-- Such values under distinct names. -/
  | object {fields : List (String × Json)} (hnames : (fields.map Prod.fst).Nodup)
      (h : ∀ f ∈ fields, IsRegular f.2) : IsRegular (.object fields)

@[simp] theorem isRegular_bool (b : Bool) : IsRegular (.bool b) := .bool b

@[simp] theorem isRegular_string (s : String) : IsRegular (.string s) := .string s

@[simp] theorem isRegular_array_iff {items : List Json} :
    IsRegular (.array items) ↔ ∀ v ∈ items, IsRegular v :=
  ⟨fun | .array h => h, .array⟩

@[simp] theorem isRegular_object_iff {fields : List (String × Json)} :
    IsRegular (.object fields) ↔ (fields.map Prod.fst).Nodup ∧ ∀ f ∈ fields, IsRegular f.2 :=
  ⟨fun | .object hnames h => ⟨hnames, h⟩, fun h => .object h.1 h.2⟩

theorem IsPlain.isRegular {v : Json} (h : v.IsPlain) : v.IsRegular := by
  induction h with
  | null => exact .null
  | bool b => exact .bool b
  | integer hmin hmax => exact .integer hmin hmax
  | string s => exact .string s
  | array _ ih => exact .array ih
  | object hnames _ ih => exact .object hnames ih

/-! ### Parts in brackets -/

section Enclosed

variable {α : Type} {part : Parser α} {opening closing : Char}

/-- The text of a part with the blanks after it, which end where something else than a part goes
on. -/
structure IsItem (part : Parser α) (t : List Char) (a : α) : Prop where
  start : ∃ c cs, t = c :: cs ∧ isBlank c = false
  read : ∀ rest, Stops isBlank rest → Stops continuesToken rest →
    (part <* blanks) (t ++ rest) = some (a, rest)

theorem isItem_append {t : List Char} {a : α} (h : IsPart part t a) {pad : List Char}
    (hpad : ∀ c ∈ pad, isBlank c = true) : IsItem part (t ++ pad) a where
  start := by
    obtain ⟨c, cs, rfl, hc⟩ := h.start
    exact ⟨c, cs ++ pad, rfl, hc⟩
  read rest hblank htoken := by
    have hstops : Stops continuesToken (pad ++ rest) := by
      cases pad with
      | nil => exact htoken
      | cons c pad => exact (stops_cons _ _ _).mpr (continuesToken_blank (hpad c List.mem_cons_self))
    rw [List.append_assoc, seqLeft_apply, h.read _ hstops, Option.bind_some, blanks_run pad hpad hblank]
    rfl

theorem IsPart.isItem {t : List Char} {a : α} (h : IsPart part t a) : IsItem part t a := by
  rw [← List.append_nil t]
  exact isItem_append h (by simp)

/-- The texts of further parts, each after a comma and blanks. -/
def followers (pad : List Char) (items : List (List Char × α)) : List (List Char × α) :=
  items.map fun i => (',' :: (pad ++ i.1), i.2)

theorem intercalate_followers (pad : List Char) (i : List Char × α) (more : List (List Char × α)) :
    (',' :: pad).intercalate ((i :: more).map Prod.fst) = i.1 ++ written (followers pad more) := by
  induction more generalizing i with
  | nil => simp [followers]
  | cons j more ih =>
    rw [List.map_cons, List.intercalate_cons_of_ne_nil (by simp), ih j]
    simp [followers]

/-- After a part stands a comma or the bracket that closes. -/
theorem stops_followers (hc : IsClosing closing) (pad : List Char) (more : List (List Char × α))
    (rest : List Char) : Stops isBlank (written (followers pad more) ++ closing :: rest)
      ∧ Stops continuesToken (written (followers pad more) ++ closing :: rest) := by
  cases more with
  | nil => exact ⟨(stops_cons _ _ _).mpr hc.blank, (stops_cons _ _ _).mpr hc.token⟩
  | cons j more => exact ⟨(stops_cons _ _ _).mpr rfl, (stops_cons _ _ _).mpr rfl⟩

theorem readsParts_followers (hc : IsClosing closing) {pad : List Char}
    (hpad : ∀ c ∈ pad, isBlank c = true) {more : List (List Char × α)}
    (h : ∀ i ∈ more, IsItem part i.1 i.2) (rest : List Char) :
    ReadsParts ((char ',' *> blanks) *> (part <* blanks)) (closing :: rest) (followers pad more) := by
  induction more with
  | nil => exact .nil
  | cons i more ih =>
    obtain ⟨hi, hmore⟩ := List.forall_mem_cons.mp h
    obtain ⟨hblank, htoken⟩ := stops_followers hc pad more rest
    have hread := hi.read _ hblank htoken
    have hcomma : (char ',' *> blanks)
        (',' :: (pad ++ (i.1 ++ (written (followers pad more) ++ closing :: rest))))
        = some ((), i.1 ++ (written (followers pad more) ++ closing :: rest)) := by
      obtain ⟨c, cs, hstart, hc⟩ := hi.start
      refine blanks_run pad hpad ?_
      rw [hstart]
      exact (stops_cons _ _ _).mpr hc
    have hboth : ((char ',' *> blanks) *> (part <* blanks))
        (',' :: (pad ++ i.1) ++ (written (followers pad more) ++ closing :: rest))
        = some (i.2, written (followers pad more) ++ closing :: rest) := by
      rw [List.cons_append, List.append_assoc, seqRight_apply, hcomma]
      exact hread
    exact .cons (List.cons_ne_nil _ _) hboth (ih hmore)

/-- One or more parts in brackets are read, with a comma and blanks between two of them. -/
theorem enclosed_run (opening : Char) (hc : IsClosing closing) {pad : List Char}
    (hpad : ∀ c ∈ pad, isBlank c = true) {items : List (List Char × α)} (hne : items ≠ [])
    (h : ∀ i ∈ items, IsItem part i.1 i.2) (rest : List Char) :
    enclosed opening closing part
      (opening :: (pad ++ ((',' :: pad).intercalate (items.map Prod.fst) ++ closing :: rest)))
      = some (items.map Prod.snd, rest) := by
  obtain ⟨i, more, rfl⟩ := List.exists_cons_of_ne_nil hne
  obtain ⟨hi, hmore⟩ := List.forall_mem_cons.mp h
  obtain ⟨hblank, htoken⟩ := stops_followers hc pad more rest
  have hpads : blanks (pad ++ (i.1 ++ (written (followers pad more) ++ closing :: rest)))
      = some ((), i.1 ++ (written (followers pad more) ++ closing :: rest)) := by
    obtain ⟨c, cs, hstart, hc⟩ := hi.start
    refine blanks_run pad hpad ?_
    rw [hstart]
    exact (stops_cons _ _ _).mpr hc
  have hnone : ((char ',' *> blanks) *> (part <* blanks)) (closing :: rest) = none := by
    rw [seqRight_apply, seqRight_apply, char_cons, if_neg hc.comma]
    rfl
  have hmany := many_parts (readsParts_followers hc hpad hmore rest) hnone
  have hparts : option (sepBy1 (part <* blanks) (char ',' *> blanks))
      (i.1 ++ (written (followers pad more) ++ closing :: rest))
      = some (some (i.2 :: more.map Prod.snd), closing :: rest) := by
    refine option_some ?_
    rw [sepBy1, bind_run (hi.read _ hblank htoken), bind_run hmany]
    simp [followers, Function.comp_def]
  rw [intercalate_followers, List.append_assoc, enclosed,
    bind_run (by rw [char_cons]; exact if_pos rfl), bind_run hpads, bind_run hparts,
    bind_run (by rw [char_cons]; exact if_pos rfl)]
  rfl

/-- Brackets with nothing inside are read. -/
theorem enclosed_empty (opening : Char) (hc : IsClosing closing) (rest : List Char)
    (hpart : part (closing :: rest) = none) :
    enclosed opening closing part (opening :: closing :: rest) = some ([], rest) := by
  have hblanks : blanks (closing :: rest) = some ((), closing :: rest) :=
    blanks_run [] (by simp) ((stops_cons _ _ _).mpr hc.blank)
  have hparts : option (sepBy1 (part <* blanks) (char ',' *> blanks)) (closing :: rest)
      = some (none, closing :: rest) := by
    refine option_none ?_
    rw [sepBy1, bind_apply, seqLeft_apply, hpart]
    rfl
  rw [enclosed, bind_run (by rw [char_cons]; exact if_pos rfl), bind_run hblanks, bind_run hparts,
    bind_run (by rw [char_cons]; exact if_pos rfl)]
  rfl

theorem enclosed_stops {s : List Char} (h : s.head? ≠ some opening) :
    enclosed opening closing part s = none := by
  cases s with
  | nil => rfl
  | cons c s =>
    have hc : c ≠ opening := fun heq => h (congrArg some heq)
    rw [enclosed, bind_apply, char_cons, if_neg hc]
    rfl

end Enclosed

/-! ### Objects -/

theorem Fields.insert_of_notMem {name : String} {fields : Fields} (h : name ∉ fields.map Prod.fst)
    (v : Json) : Fields.insert name v fields = fields ++ [(name, v)] := by
  induction fields with
  | nil => rfl
  | cons f more ih =>
    rw [List.map_cons, List.mem_cons, not_or] at h
    rw [Fields.insert, if_neg (Ne.symm h.1), ih h.2, List.cons_append]

theorem ofFields_eq_foldl (fields : Fields) : ofFields fields
    = .object (fields.foldl (fun sofar f => Fields.insert f.1 f.2 sofar) []) := rfl

/-- Fields with distinct names are put one behind the other. -/
theorem foldl_insert_of_nodup {sofar fields : Fields}
    (h : (sofar.map Prod.fst ++ fields.map Prod.fst).Nodup) :
    fields.foldl (fun sofar f => Fields.insert f.1 f.2 sofar) sofar = sofar ++ fields := by
  induction fields generalizing sofar with
  | nil => simp
  | cons f more ih =>
    have hnew : f.1 ∉ sofar.map Prod.fst := fun hmem =>
      (List.nodup_append'.mp h).2.2 hmem List.mem_cons_self
    have hmore : ((sofar ++ [f]).map Prod.fst ++ more.map Prod.fst).Nodup := by
      simpa [List.append_assoc] using h
    rw [List.foldl_cons, Fields.insert_of_notMem hnew, ih hmore, List.append_assoc,
      List.singleton_append]

/-- Fields with distinct names make up an object as they are. -/
theorem ofFields_of_nodup {fields : Fields} (h : (fields.map Prod.fst).Nodup) :
    ofFields fields = .object fields := by
  have hnodup : (([] : Fields).map Prod.fst ++ fields.map Prod.fst).Nodup := h
  rw [ofFields_eq_foldl, foldl_insert_of_nodup hnodup, List.nil_append]

/-! ### Texts -/

theorem prettyItems_eq_map (level : Nat) (items : List Json) :
    prettyItems level items = items.map (prettyAt level) := by
  induction items with
  | nil => rfl
  | cons item more ih => simp [prettyItems, ih]

/-- The text of a field. -/
def prettyField (level : Nat) (f : String × Json) : String := quote f.1 ++ ": " ++ prettyAt level f.2

theorem prettyFields_eq_map (level : Nat) (fields : List (String × Json)) :
    prettyFields level fields = fields.map (prettyField level) := by
  induction fields with
  | nil => rfl
  | cons f more ih => simp [prettyFields, prettyField, ih]

/-- A break of a line and the blanks that the next line begins with. -/
def lineStart (level : Nat) : List Char := '\n' :: List.replicate (2 * level) ' '

theorem isBlank_of_mem_lineStart {level : Nat} : ∀ c ∈ lineStart level, isBlank c = true := by
  refine List.forall_mem_cons.mpr ⟨rfl, fun c hc => ?_⟩
  rw [List.eq_of_mem_replicate hc]
  rfl

theorem toList_pushn (n : Nat) : ("".pushn ' ' n).toList = List.replicate n ' ' := by
  induction n with
  | zero => rfl
  | succ n ih =>
    rw [String.pushn_eq_repeat_push] at ih ⊢
    rw [Nat.repeat, String.toList_push, ih, ← List.replicate_succ']

theorem toList_bracketed_nil (level : Nat) (opening closing : String) :
    (bracketed level opening closing []).toList = opening.toList ++ closing.toList := by
  simp [bracketed]

/-- Items in brackets are each on their line. -/
theorem toList_bracketed (level : Nat) (opening closing : String) {items : List String}
    (hne : items ≠ []) : (bracketed level opening closing items).toList
      = opening.toList ++ (lineStart (level + 1) ++ ((',' :: lineStart (level + 1)).intercalate
        (items.map String.toList) ++ (lineStart level ++ closing.toList))) := by
  rw [bracketed, if_neg (by simpa using hne)]
  simp [toList_pushn, lineStart, String.toList_intercalate]

/-! ### Values without parts -/

theorem value_eq_scalar (depth : Nat) {s : List Char} (h₁ : s.head? ≠ some '[')
    (h₂ : s.head? ≠ some '\x7b') : value depth s = scalar s := by
  cases depth with
  | zero => rfl
  | succ depth =>
    rw [value, orElse_apply, orElse_apply, map_apply, map_apply, enclosed_stops h₁, enclosed_stops h₂]
    rfl

theorem isPart_null (depth : Nat) : IsPart (value depth) "null".toList .null where
  start := ⟨'n', ['u', 'l', 'l'], rfl, rfl⟩
  read rest _ := by
    rw [value_eq_scalar depth (by simp) (by simp)]
    rfl

theorem isPart_bool (depth : Nat) (b : Bool) :
    IsPart (value depth) (if b then "true" else "false").toList (.bool b) := by
  cases b with
  | true =>
    refine ⟨⟨'t', ['r', 'u', 'e'], rfl, rfl⟩, fun rest _ => ?_⟩
    rw [value_eq_scalar depth (by simp) (by simp)]
    rfl
  | false =>
    refine ⟨⟨'f', ['a', 'l', 's', 'e'], rfl, rfl⟩, fun rest _ => ?_⟩
    rw [value_eq_scalar depth (by simp) (by simp)]
    rfl

theorem isPart_quote (depth : Nat) (s : String) : IsPart (value depth) (quote s).toList (.string s) where
  start := ⟨'"', s.toList.flatMap escape ++ ['"'], by simp [quote], rfl⟩
  read rest _ := by
    rw [value_eq_scalar depth (by simp [quote]) (by simp [quote]), scalar, orElse_apply, map_apply,
      stringLiteral_quote]
    rfl

/-- A numeral that is read as a number is read as a value. -/
theorem isPart_number (depth : Nat) {t : List Char} {v : Json} (ht : IsNumeral t)
    (h : ∀ rest, Stops continuesToken rest → number (t ++ rest) = some (v, rest)) :
    IsPart (value depth) t v := by
  obtain ⟨c, cs, hc, hfirst⟩ := ht.head
  have hne : c ≠ '[' ∧ c ≠ '\x7b' ∧ c ≠ '"' := by
    refine ⟨?_, ?_, ?_⟩ <;> rintro rfl <;> exact absurd hfirst (by decide)
  have hblank : isBlank c = false := by
    refine Bool.eq_false_iff.mpr fun hb => ?_
    have hstops := continuesToken_blank hb
    rcases hfirst with rfl | hdigit
    · exact absurd hb (by decide)
    · simp [continuesToken, Char.isAlphanum, hdigit] at hstops
  refine ⟨⟨c, cs, hc, hblank⟩, fun rest hrest => ?_⟩
  have hquote : stringLiteral (t ++ rest) = none := by
    rw [hc, List.cons_append, stringLiteral, bind_apply, char_cons, if_neg hne.2.2]
    rfl
  rw [value_eq_scalar depth (by simp [hc, hne.1]) (by simp [hc, hne.2.1]), scalar, orElse_apply,
    orElse_apply, map_apply, hquote, h rest hrest]
  rfl

theorem isPart_integer (depth : Nat) {n : Int} (hmin : -0x8000000000000000 ≤ n)
    (hmax : n < 0x10000000000000000) : IsPart (value depth) n.repr.toList (.integer n) :=
  isPart_number depth (isNumeral_repr n) fun _ hrest => number_repr hmin hmax hrest

theorem isPart_float (depth : Nat) {x : Binary64} (hx : x.isFinite = true) :
    IsPart (value depth) (floatText x).toList (.float x) := by
  rw [floatText, if_pos hx, String.toList_ofList]
  exact isPart_number depth (isNumeral_text hx) fun _ hrest => number_text hx hrest

/-! ### Lists and objects -/

/-- A field of an object. -/
def field (depth : Nat) : Parser (String × Json) := do
  let name ← stringLiteral
  blanks
  char ':'
  blanks
  return (name, ← value depth)

theorem value_succ (depth : Nat) : value (depth + 1)
    = ((Json.array <$> enclosed '[' ']' (value depth))
      <|> (ofFields <$> enclosed '\x7b' '\x7d' (field depth)) <|> scalar) := rfl

theorem isPart_field {level depth : Nat} {f : String × Json}
    (h : IsPart (value depth) (prettyAt level f.2).toList f.2) :
    IsPart (field depth) (prettyField level f).toList f where
  start := ⟨'"', f.1.toList.flatMap escape ++ '"' :: (": ".toList ++ (prettyAt level f.2).toList),
    by simp [prettyField, quote], rfl⟩
  read rest hrest := by
    have htext : (prettyField level f).toList ++ rest
        = (quote f.1).toList ++ (':' :: ([' '] ++ ((prettyAt level f.2).toList ++ rest))) := by
      simp [prettyField]
    have hcolon : blanks (':' :: ([' '] ++ ((prettyAt level f.2).toList ++ rest)))
        = some ((), ':' :: ([' '] ++ ((prettyAt level f.2).toList ++ rest))) :=
      blanks_run [] (by simp) ((stops_cons _ _ _).mpr rfl)
    have hblank : blanks ([' '] ++ ((prettyAt level f.2).toList ++ rest))
        = some ((), (prettyAt level f.2).toList ++ rest) := by
      obtain ⟨c, cs, hstart, hc⟩ := h.start
      refine blanks_run [' '] (by simp [isBlank]) ?_
      rw [hstart]
      exact (stops_cons _ _ _).mpr hc
    rw [htext, field, bind_run (stringLiteral_quote _ _), bind_run hcolon,
      bind_run (by rw [char_cons]; exact if_pos rfl), bind_run hblank, bind_run (h.read rest hrest)]
    rfl

theorem isClosing_bracket : IsClosing ']' := ⟨rfl, rfl, by decide⟩

theorem isClosing_brace : IsClosing '\x7d' := ⟨rfl, rfl, by decide⟩

/-- What follows a text that is put together follows the last of its parts. -/
theorem intercalate_concat_append (sep : List Char) (parts : List (List Char)) (last rest : List Char) :
    sep.intercalate (parts ++ [last]) ++ rest = sep.intercalate (parts ++ [last ++ rest]) := by
  induction parts with
  | nil => simp
  | cons part parts ih =>
    rw [List.cons_append, List.cons_append, List.intercalate_cons_of_ne_nil (by simp),
      List.intercalate_cons_of_ne_nil (by simp), List.append_assoc, ih]

/-- Items are read from their lines, with the blanks before the bracket that closes. -/
theorem enclosed_bracketed {α : Type} {part : Parser α} {opening closing : Char}
    (hc : IsClosing closing) {left right : String} (hleft : left.toList = [opening])
    (hright : right.toList = [closing]) (level : Nat) {items : List α} {text : α → String}
    (h : ∀ i ∈ items, IsPart part (text i).toList i) (hpart : ∀ s, part (closing :: s) = none)
    (rest : List Char) : enclosed opening closing part
      ((bracketed level left right (items.map text)).toList ++ rest) = some (items, rest) := by
  rcases List.eq_nil_or_concat' items with rfl | ⟨init, last, rfl⟩
  · rw [List.map_nil, toList_bracketed_nil, hleft, hright]
    exact enclosed_empty opening hc rest (hpart rest)
  · let parts := init.map (fun i => ((text i).toList, i))
      ++ [((text last).toList ++ lineStart level, last)]
    have hparts : ∀ i ∈ parts, IsItem part i.1 i.2 := by
      refine List.forall_mem_append.mpr ⟨List.forall_mem_map.mpr fun i hi => ?_, ?_⟩
      · exact IsPart.isItem (h i (List.mem_append_left _ hi))
      · simpa using isItem_append (h last (by simp)) isBlank_of_mem_lineStart
    have htext : (bracketed level left right ((init ++ [last]).map text)).toList ++ rest
        = opening :: (lineStart (level + 1) ++ ((',' :: lineStart (level + 1)).intercalate
          (parts.map Prod.fst) ++ closing :: rest)) := by
      rw [toList_bracketed _ _ _ (by simp), hleft, hright]
      simp [parts, ← intercalate_concat_append, Function.comp_def]
    have hvalues : parts.map Prod.snd = init ++ [last] := by
      simp [parts, Function.comp_def]
    rw [htext, enclosed_run opening hc isBlank_of_mem_lineStart (by simp [parts]) hparts, hvalues]

theorem exists_cons_bracketed (level : Nat) {opening : Char} (left right : String)
    (hleft : left.toList = [opening]) (items : List String) :
    ∃ cs, (bracketed level left right items).toList = opening :: cs := by
  by_cases hne : items = []
  · rw [hne, toList_bracketed_nil, hleft]
    exact ⟨_, rfl⟩
  · rw [toList_bracketed _ _ _ hne, hleft]
    exact ⟨_, rfl⟩

/-- The text of a value is read back, at whatever level it stands and wherever it ends. -/
def ReadsBack (v : Json) : Prop :=
  ∀ level depth, v.depth ≤ depth → IsPart (value depth) (prettyAt level v).toList v

theorem readsBack_array {items : List Json} (h : ∀ v ∈ items, ReadsBack v) :
    ReadsBack (.array items) := by
  intro level depth hdepth
  rw [Json.depth] at hdepth
  obtain ⟨depth, rfl⟩ : ∃ d, depth = d + 1 := ⟨depth - 1, by omega⟩
  have hparts : ∀ v ∈ items, IsPart (value depth) (prettyAt (level + 1) v).toList v :=
    fun v hv => h v hv (level + 1) depth ((depth_le_of_mem_items hv).trans (by omega))
  have hbracket : ∀ s, value depth (']' :: s) = none := by
    intro s
    rw [value_eq_scalar depth (by simp) (by simp)]
    rfl
  rw [prettyAt, prettyItems_eq_map]
  obtain ⟨cs, hcs⟩ : ∃ cs, (bracketed level "[" "]" (items.map (prettyAt (level + 1)))).toList
      = '[' :: cs :=
    exists_cons_bracketed level _ _ rfl _
  refine ⟨⟨'[', cs, hcs, rfl⟩, fun rest _ => ?_⟩
  rw [value_succ, orElse_apply, map_apply,
    enclosed_bracketed isClosing_bracket rfl rfl level hparts hbracket rest]
  rfl

theorem readsBack_object {fields : List (String × Json)} (hnames : (fields.map Prod.fst).Nodup)
    (h : ∀ f ∈ fields, ReadsBack f.2) : ReadsBack (.object fields) := by
  intro level depth hdepth
  rw [Json.depth] at hdepth
  obtain ⟨depth, rfl⟩ : ∃ d, depth = d + 1 := ⟨depth - 1, by omega⟩
  have hparts : ∀ f ∈ fields, IsPart (field depth) (prettyField (level + 1) f).toList f :=
    fun f hf => isPart_field (h f hf (level + 1) depth ((depth_le_of_mem_fields hf).trans (by omega)))
  have hbrace : ∀ s, field depth ('\x7d' :: s) = none := fun _ => rfl
  rw [prettyAt, prettyFields_eq_map]
  obtain ⟨cs, hcs⟩ : ∃ cs, (bracketed level "\x7b" "\x7d"
      (fields.map (prettyField (level + 1)))).toList = '\x7b' :: cs :=
    exists_cons_bracketed level _ _ rfl _
  refine ⟨⟨'\x7b', cs, hcs, rfl⟩, fun rest _ => ?_⟩
  have hbracket : enclosed '[' ']' (value depth) ((bracketed level "\x7b" "\x7d"
      (fields.map (prettyField (level + 1)))).toList ++ rest) = none := by
    rw [hcs]
    exact enclosed_stops (by simp)
  rw [value_succ, orElse_apply, orElse_apply, map_apply, map_apply, hbracket,
    enclosed_bracketed isClosing_brace rfl rfl level hparts hbrace rest, Option.map_some,
    ofFields_of_nodup hnames]
  rfl

theorem readsBack {v : Json} (h : v.IsRegular) : ReadsBack v := by
  induction h with
  | null => exact fun _ depth _ => isPart_null depth
  | bool b => exact fun _ depth _ => isPart_bool depth b
  | integer hmin hmax => exact fun _ depth _ => isPart_integer depth hmin hmax
  | float hx => exact fun _ depth _ => isPart_float depth hx
  | string s => exact fun _ depth _ => isPart_quote depth s
  | array _ ih => exact readsBack_array ih
  | object hnames _ ih => exact readsBack_object hnames ih

/-- **Values over several lines are read back.** -/
theorem read?_pretty_of_isRegular {v : Json} (h : v.IsRegular) (hdepth : v.depth ≤ nestingLimit) :
    read? v.pretty = some v := by
  have hpart := readsBack h 0 nestingLimit hdepth
  have hvalue := hpart.read [] (stops_nil _)
  rw [List.append_nil] at hvalue
  have hblanks : blanks v.pretty.toList = some ((), v.pretty.toList) := by
    obtain ⟨c, cs, hstart, hc⟩ := hpart.start
    refine blanks_run [] (by simp) ?_
    change Stops isBlank (prettyAt 0 v).toList
    rw [hstart]
    exact (stops_cons _ _ _).mpr hc
  have hrun : (blanks *> value nestingLimit <* blanks) v.pretty.toList = some (v, []) := by
    rw [seqLeft_apply, seqRight_apply, hblanks, Option.bind_some, pretty, hvalue]
    rfl
  rw [read?, Parser.run, hrun]

theorem read?_pretty {v : Json} (h : v.IsPlain) (hdepth : v.depth ≤ nestingLimit) :
    read? v.pretty = some v :=
  read?_pretty_of_isRegular h.isRegular hdepth

end Handoff.Json
