import Handoff.Json.Reader

/-!
# Parsers run on written text

How the combinators act on a text that begins with what they read. The lemmas
on single steps are simp lemmas, so that a parser put together from them runs by
rewriting. Repetition is stated for a list of parts, each with the text that it
is written as: where every part is read whatever follows it in the list, the
whole list is read (`many_parts`). A text of lines is taken apart at the breaks
(`toList_intercalate_cons`). What is read from texts that nobody wrote is said by
a property that one combinator hands to the next (`Gives`).
-/

namespace Handoff.Parser

variable {α β : Type}

/-! ### Single steps -/

@[simp] theorem pure_apply (a : α) (s : List Char) : (pure a : Parser α) s = some (a, s) := rfl

@[simp] theorem failure_apply (s : List Char) : (failure : Parser α) s = none := rfl

@[simp] theorem bind_apply (p : Parser α) (f : α → Parser β) (s : List Char) :
    (p >>= f) s = (p s).bind fun r => f r.1 r.2 := rfl

@[simp] theorem map_apply (f : α → β) (p : Parser α) (s : List Char) :
    (f <$> p) s = (p s).map fun r => (f r.1, r.2) := by
  change ((p s).bind fun r => some (f r.1, r.2)) = _
  cases p s <;> rfl

@[simp] theorem seqRight_apply (p : Parser α) (q : Parser β) (s : List Char) :
    (p *> q) s = (p s).bind fun r => q r.2 := rfl

@[simp] theorem seqLeft_apply (p : Parser α) (q : Parser β) (s : List Char) :
    (p <* q) s = (p s).bind fun r => (q r.2).map fun r' => (r.1, r'.2) := by
  change ((p s).bind fun r => (q r.2).bind fun r' => some (r.1, r'.2)) = _
  cases p s with
  | none => rfl
  | some r => cases h : q r.2 <;> simp [h]

@[simp] theorem orElse_apply (p q : Parser α) (s : List Char) : (p <|> q) s = (p s).or (q s) := by
  change ((p s).orElse fun _ => q s) = _
  cases p s <;> rfl

@[simp] theorem char_cons (c d : Char) (s : List Char) :
    char c (d :: s) = if d = c then some ((), s) else none := rfl

@[simp] theorem char_nil (c : Char) : char c [] = none := rfl

@[simp] theorem satisfy_cons (p : Char → Bool) (c : Char) (s : List Char) :
    satisfy p (c :: s) = if p c then some (c, s) else none := rfl

@[simp] theorem satisfy_nil (p : Char → Bool) : satisfy p [] = none := rfl

@[simp] theorem look_apply (p : List Char → Bool) (s : List Char) :
    look p s = if p s then some ((), s) else none := rfl

@[simp] theorem text_append (t s : List Char) : text t (t ++ s) = some ((), s) := by
  simp [text]

theorem option_some {p : Parser α} {s t : List Char} {a : α} (h : p s = some (a, t)) :
    option p s = some (some a, t) := by
  simp [option, h]

theorem option_none {p : Parser α} {s : List Char} (h : p s = none) :
    option p s = some (none, s) := by
  simp [option, h]

/-- A sequence goes on with what its first part gives. -/
theorem bind_run {p : Parser α} {f : α → Parser β} {s t : List Char} {a : α} (h : p s = some (a, t)) :
    (p >>= f) s = f a t := by
  simp [h]

/-! ### Runs of characters -/

/-- The text does not begin with a character that satisfies `p`. -/
def Stops (p : Char → Bool) (s : List Char) : Prop := ∀ c ∈ s.head?, p c = false

@[simp] theorem stops_nil (p : Char → Bool) : Stops p [] := by simp [Stops]

@[simp] theorem stops_cons (p : Char → Bool) (c : Char) (s : List Char) :
    Stops p (c :: s) ↔ p c = false := by simp [Stops]

theorem takeWhile_stops {p : Char → Bool} {t s : List Char} (ht : ∀ c ∈ t, p c = true)
    (hs : Stops p s) : (t ++ s).takeWhile p = t ∧ (t ++ s).dropWhile p = s := by
  rw [List.takeWhile_append_of_pos ht, List.dropWhile_append_of_pos ht]
  cases s with
  | nil => simp
  | cons c s => simp [(stops_cons p c s).mp hs]

/-- A run is read up to where it stops. -/
theorem takeWhile_run {p : Char → Bool} {t s : List Char} (ht : ∀ c ∈ t, p c = true)
    (hs : Stops p s) : takeWhile p (t ++ s) = some (t, s) := by
  obtain ⟨h₁, h₂⟩ := takeWhile_stops ht hs
  simp [takeWhile, h₁, h₂]

theorem takeWhile1_run {p : Char → Bool} {t s : List Char} (hne : t ≠ []) (ht : ∀ c ∈ t, p c = true)
    (hs : Stops p s) : takeWhile1 p (t ++ s) = some (t, s) := by
  obtain ⟨h₁, h₂⟩ := takeWhile_stops ht hs
  unfold takeWhile1
  rw [h₁, h₂]
  cases t with
  | nil => exact absurd rfl hne
  | cons c t => rfl

theorem takeWhile1_stops {p : Char → Bool} {s : List Char} (hs : Stops p s) :
    takeWhile1 p s = none := by
  unfold takeWhile1
  rw [show s.takeWhile p = [] by simpa using (takeWhile_stops (t := []) (by simp) hs).1]

/-! ### Repetition -/

/-- The texts of the parts, one after the other. -/
def written (parts : List (List Char × α)) : List Char := parts.flatMap Prod.fst

@[simp] theorem written_nil : written ([] : List (List Char × α)) = [] := rfl

@[simp] theorem written_cons (t : List Char) (a : α) (parts : List (List Char × α)) :
    written ((t, a) :: parts) = t ++ written parts := rfl

@[simp] theorem written_append (xs ys : List (List Char × α)) :
    written (xs ++ ys) = written xs ++ written ys := List.flatMap_append

/-- Each part is read off the text of the list from there on, which `rest` follows. -/
inductive ReadsParts (p : Parser α) (rest : List Char) : List (List Char × α) → Prop where
  /-- There is nothing to read. -/
  | nil : ReadsParts p rest []
  /-- The first part is read, and then the others. -/
  | cons {t : List Char} {a : α} {parts : List (List Char × α)} (hne : t ≠ [])
      (h : p (t ++ (written parts ++ rest)) = some (a, written parts ++ rest)) :
      ReadsParts p rest parts → ReadsParts p rest ((t, a) :: parts)

/-- The parts before others are read as if the text of those belonged to what follows. -/
theorem ReadsParts.append {p : Parser α} {rest : List Char} {xs ys : List (List Char × α)}
    (hx : ReadsParts p (written ys ++ rest) xs) (hy : ReadsParts p rest ys) :
    ReadsParts p rest (xs ++ ys) := by
  induction hx with
  | nil => exact hy
  | cons hne h _ ih => exact .cons hne (by simpa using h) ih

theorem ReadsParts.length_le {p : Parser α} {rest : List Char} {parts : List (List Char × α)}
    (h : ReadsParts p rest parts) : parts.length ≤ (written parts).length := by
  induction h with
  | nil => simp
  | @cons t a parts hne _ _ ih =>
    have := List.length_pos_iff.mpr hne
    simp only [List.length_cons, written_cons, List.length_append]
    omega

/-- Within a budget that is long enough all the parts are read, after those read before. -/
theorem manyWithin_parts {p : Parser α} {rest : List Char} {parts : List (List Char × α)}
    (h : ReadsParts p rest parts) (hrest : p rest = none) (budget : List Char) (read : List α)
    (hb : parts.length ≤ budget.length) :
    manyWithin p budget read (written parts ++ rest)
      = some (read.reverse ++ parts.map Prod.snd, rest) := by
  induction h generalizing budget read with
  | nil =>
    cases budget with
    | nil => simp [manyWithin]
    | cons _ budget => simp [manyWithin, hrest]
  | @cons t a parts _ h _ ih =>
    cases budget with
    | nil => simp at hb
    | cons _ budget =>
      simp only [written_cons, List.append_assoc, manyWithin, h]
      rw [ih budget (a :: read) (by simpa using hb)]
      simp

/-- **Repetition**: all the parts are read, if what follows them is none. -/
theorem many_parts {p : Parser α} {rest : List Char} {parts : List (List Char × α)}
    (h : ReadsParts p rest parts) (hrest : p rest = none) :
    many p (written parts ++ rest) = some (parts.map Prod.snd, rest) := by
  have hle := h.length_le
  unfold many
  rw [manyWithin_parts h hrest _ [] (by simp; omega)]
  rfl

/-- Items that are each read whatever follows them are read one after the other. -/
theorem many_flatMap {p : Parser α} (spell : β → List Char) (value : β → α) (items : List β)
    {rest : List Char} (hne : ∀ b ∈ items, spell b ≠ [])
    (h : ∀ b ∈ items, ∀ rest, p (spell b ++ rest) = some (value b, rest)) (hrest : p rest = none) :
    many p (items.flatMap spell ++ rest) = some (items.map value, rest) := by
  have hparts : ReadsParts p rest (items.map fun b => (spell b, value b)) := by
    clear hrest
    induction items with
    | nil => exact .nil
    | cons b items ih =>
      exact .cons (hne b (by simp)) (h b (by simp) _)
        (ih (fun b hb => hne b (by simp [hb])) fun b hb => h b (by simp [hb]))
  have hmany := many_parts hparts hrest
  simpa [written, List.flatMap_map, Function.comp_def] using hmany

/-! ### What is read -/

section Gives

variable {p : Parser α} {P : α → Prop} {Q : β → Prop}

/-- Whatever the parser reads has the property. -/
def Gives (p : Parser α) (P : α → Prop) : Prop := ∀ s a rest, p s = some (a, rest) → P a

theorem gives_any (p : Parser α) : Gives p fun _ => True := fun _ _ _ _ => trivial

theorem gives_pure {a : α} (h : P a) : Gives (pure a) P := by
  intro s b rest hrun
  cases hrun
  exact h

theorem gives_failure : Gives (failure : Parser α) P := fun _ _ _ hrun => by cases hrun

theorem gives_satisfy (p : Char → Bool) : Gives (satisfy p) fun c => p c = true := by
  intro s c rest hrun
  cases s with
  | nil => cases hrun
  | cons d s =>
    rw [satisfy_cons] at hrun
    split at hrun
    · next hd =>
      cases hrun
      exact hd
    · cases hrun

theorem gives_takeWhile1 (p : Char → Bool) : Gives (takeWhile1 p) fun t => ∀ c ∈ t, p c = true := by
  intro s t rest hrun c hc
  rw [takeWhile1] at hrun
  split at hrun
  · cases hrun
  · cases hrun
    exact List.all_eq_true.mp List.all_takeWhile c hc

theorem Gives.bind {f : α → Parser β} (hp : Gives p P) (hf : ∀ a, P a → Gives (f a) Q) :
    Gives (p >>= f) Q := by
  intro s b rest hrun
  rw [bind_apply] at hrun
  obtain ⟨⟨a, t⟩, ha, hb⟩ := Option.bind_eq_some_iff.mp hrun
  exact hf a (hp s a t ha) t b rest hb

theorem Gives.map {f : α → β} (hp : Gives p P) (hf : ∀ a, P a → Q (f a)) : Gives (f <$> p) Q :=
  hp.bind fun a ha => gives_pure (hf a ha)

theorem Gives.seqRight (hp : Gives p P) (q : Parser β) : Gives (q *> p) P :=
  (gives_any q).bind fun _ _ => hp

theorem Gives.seqLeft (hp : Gives p P) (q : Parser β) : Gives (p <* q) P :=
  hp.bind fun _ ha => (gives_any q).bind fun _ _ => gives_pure ha

theorem Gives.orElse {q : Parser α} (hp : Gives p P) (hq : Gives q P) : Gives (p <|> q) P := by
  intro s a rest hrun
  rw [orElse_apply] at hrun
  rcases Option.or_eq_some_iff.mp hrun with hfirst | ⟨-, hsecond⟩
  · exact hp s a rest hfirst
  · exact hq s a rest hsecond

theorem Gives.option (hp : Gives p P) : Gives (option p) fun o => ∀ a ∈ o, P a := by
  intro s o rest hrun
  cases hread : p s with
  | none =>
    rw [option_none hread] at hrun
    cases hrun
    simp
  | some r =>
    rw [option_some hread] at hrun
    cases hrun
    rintro _ ⟨⟩
    exact hp s r.1 r.2 hread

theorem Gives.manyWithin (hp : Gives p P) (budget : List Char) {read : List α}
    (hread : ∀ a ∈ read, P a) : Gives (manyWithin p budget read) fun xs => ∀ a ∈ xs, P a := by
  have hdone : Gives (pure read.reverse) fun xs => ∀ a ∈ xs, P a :=
    gives_pure fun a ha => hread a (List.mem_reverse.mp ha)
  induction budget generalizing read with
  | nil => exact hdone
  | cons _ budget ih =>
    intro s xs rest hrun
    rw [Parser.manyWithin] at hrun
    dsimp only at hrun
    split at hrun
    · next a t ha =>
      have hmore : ∀ b ∈ a :: read, P b := List.forall_mem_cons.mpr ⟨hp s a t ha, hread⟩
      exact ih hmore (gives_pure fun b hb => hmore b (List.mem_reverse.mp hb)) t xs rest hrun
    · exact hdone s xs rest hrun

theorem Gives.many (hp : Gives p P) : Gives (many p) fun xs => ∀ a ∈ xs, P a :=
  fun s => hp.manyWithin s (List.forall_mem_nil P) s

theorem Gives.sepBy1 (hp : Gives p P) (separator : Parser Unit) :
    Gives (sepBy1 p separator) fun xs => ∀ a ∈ xs, P a :=
  hp.bind fun _ ha => (hp.seqRight separator).many.bind fun _ hmore =>
    gives_pure (List.forall_mem_cons.mpr ⟨ha, hmore⟩)

theorem Gives.of_run (hp : Gives p P) {s : List Char} {a : α} (h : run p s = some a) : P a := by
  unfold run at h
  split at h
  · next b hrun =>
    cases h
    exact hp s a [] hrun
  · cases h

end Gives

/-! ### Lines -/

/-- Lines, each after a break. -/
def broken (lines : List String) : List Char := lines.flatMap fun l => '\n' :: l.toList

@[simp] theorem broken_cons (l : String) (lines : List String) :
    broken (l :: lines) = '\n' :: (l.toList ++ broken lines) := rfl

@[simp] theorem broken_append (lines more : List String) :
    broken (lines ++ more) = broken lines ++ broken more := List.flatMap_append

theorem toList_intercalate_cons (l : String) (lines : List String) :
    ("\n".intercalate (l :: lines)).toList = l.toList ++ broken lines := by
  induction lines generalizing l with
  | nil => simp [broken]
  | cons l' lines ih =>
    rw [String.intercalate_cons_of_ne_nil (by simp), String.toList_append, ih l']
    simp

theorem toList_intercalate_append {lines : List String} (h : lines ≠ []) (more : List String) :
    ("\n".intercalate (lines ++ more)).toList = ("\n".intercalate lines).toList ++ broken more := by
  obtain ⟨l, lines, rfl⟩ := List.exists_cons_of_ne_nil h
  rw [List.cons_append, toList_intercalate_cons, toList_intercalate_cons, broken_append,
    List.append_assoc]

end Handoff.Parser
