import Handoff.Proofs.Markup.Component
import Handoff.Project.Generate

/-!
# Reading source files

The source of a component is a module of a script: lines that import names from
other modules, and a function that is exported and returns an element. A parser
reads it as such. The names of imports stand in braces, or there is one without
braces. After the function there may be a line that exports it once more as what
the module exports by default.

The source of a component is read back from its text (`Source.read?_fileSource`):
it imports the primitives that the component is made of, and it exports a
function of the name given that returns the element that the component shows.
-/

namespace Handoff

open Handoff.Parser

/-! ### Elements in a text -/

namespace Element

/-- An element, after blanks. -/
def element : Parser Element := do
  let _ ← takeWhile (· = ' ')
  let pieces ← many piece
  match pieces.foldlM step (.within []) with
  | some (.done e) => return e
  | _ => failure

/-- An element is read up to where something follows that is no piece of one. -/
theorem element_source {m : Markup} (hm : m.WellNamed) (indent : Nat) {rest : List Char}
    (hrest : piece rest = none) :
    element ((m.source indent).toList ++ rest) = some (ofMarkup m, rest) := by
  obtain ⟨cs, hcs⟩ := written_pieces_cons indent m
  have hblanks : takeWhile (· = ' ')
      ((Markup.blanks indent).toList ++ (written (pieces indent m) ++ rest))
      = some ((Markup.blanks indent).toList, written (pieces indent m) ++ rest) :=
    takeWhile_run (by simp [Markup.blanks]) (by simp [hcs])
  have hmany := many_parts (readsParts_pieces hm indent rest) hrest
  rw [toList_source, List.append_assoc, element, bind_run hblanks, bind_run hmany,
    foldlM_step_pieces hm indent []]
  rfl

end Element

/-! ### The grammar -/

/-- What the source of a component says. -/
structure Source where
  /-- The names that are imported, in order. -/
  imported : List String
  /-- The name of the function that is exported. -/
  exported : String
  /-- The element that the function returns. -/
  shown : Element

namespace Source

/-- Names in braces. -/
def namesInBraces : Parser (List String) := do
  Parser.text "\x7b ".toList
  let names ← sepBy1 Script.name (Parser.text ", ".toList)
  Parser.text " \x7d".toList
  return names

/-- What is imported: the default of a module under a name, or names in braces. -/
def clause : Parser (List String) := (fun name => [name]) <$> Script.name <|> namesInBraces

/-- A line that imports names from a module. -/
def importLine : Parser (List String) := do
  Parser.text "import ".toList
  let names ← clause
  Parser.text " from ".toList
  let _ ← Script.stringLiteral
  Parser.text ";\n".toList
  return names

/-- The line that begins the function. It may be what the module exports by default. -/
def opening : Parser String := do
  Parser.text "export ".toList
  let _ ← option (Parser.text "default ".toList)
  Parser.text "function ".toList
  let name ← Script.name
  Parser.text "() \x7b\n".toList
  return name

/-- A line that exports the function of the name given by default. -/
def defaultExport (name : String) : Parser Unit := do
  Parser.text "\nexport default ".toList
  let exported ← Script.name
  if exported = name then Parser.text ";\n".toList else failure

/-- The source of a component. -/
def source : Parser Source := do
  let imported ← many importLine
  char '\n'
  let exported ← opening
  Parser.text "  return (\n".toList
  let shown ← Element.element
  Parser.text "\n  );\n\x7d\n".toList
  let _ ← option (defaultExport exported)
  return ⟨imported.flatten, exported, shown⟩

/-- The source that a text is. -/
def read? (text : String) : Option Source := source.run text.toList

/-! ### Reading imports -/

/-- Further names are read, each after a comma and a blank. -/
theorem readsParts_names {names : List String} (h : ∀ n ∈ names, Script.isIdentifier n = true)
    {rest : List Char} (hrest : Stops Json.continuesToken rest) :
    ReadsParts (Parser.text ", ".toList *> Script.name) rest
      (names.map fun n => (", ".toList ++ n.toList, n)) := by
  induction names with
  | nil => exact .nil
  | cons n more ih =>
    obtain ⟨hn, hmore⟩ := List.forall_mem_cons.mp h
    have hstops : Stops Json.continuesToken
        (written (more.map fun n => (", ".toList ++ n.toList, n)) ++ rest) := by
      cases more with
      | nil => exact hrest
      | cons m more => exact (stops_cons _ _ _).mpr rfl
    refine .cons (by simp) ?_ (ih hmore)
    rw [List.append_assoc, seqRight_apply, text_append]
    exact Script.name_identifier hn hstops

theorem toList_intercalate_names (n : String) (more : List String) :
    (", ".intercalate (n :: more)).toList
      = n.toList ++ written (more.map fun n => (", ".toList ++ n.toList, n)) := by
  induction more generalizing n with
  | nil => simp
  | cons m more ih =>
    rw [String.intercalate_cons_of_ne_nil (by simp), String.toList_append, ih m]
    simp

theorem namesInBraces_run {names : List String} (hne : names ≠ [])
    (h : ∀ n ∈ names, Script.isIdentifier n = true) (rest : List Char) :
    namesInBraces ("\x7b ".toList ++ ((", ".intercalate names).toList ++ (" \x7d".toList ++ rest)))
      = some (names, rest) := by
  obtain ⟨n, more, rfl⟩ := List.exists_cons_of_ne_nil hne
  obtain ⟨hn, hmore⟩ := List.forall_mem_cons.mp h
  have hstops : Stops Json.continuesToken (" \x7d".toList ++ rest) := (stops_cons _ _ _).mpr rfl
  have hparts := many_parts (readsParts_names hmore hstops) rfl
  have hfirst : Stops Json.continuesToken
      (written (more.map fun n => (", ".toList ++ n.toList, n)) ++ (" \x7d".toList ++ rest)) := by
    cases more with
    | nil => exact hstops
    | cons m more => exact (stops_cons _ _ _).mpr rfl
  have hnames : sepBy1 Script.name (Parser.text ", ".toList)
      ((", ".intercalate (n :: more)).toList ++ (" \x7d".toList ++ rest))
      = some (n :: more, " \x7d".toList ++ rest) := by
    rw [toList_intercalate_names, List.append_assoc, sepBy1,
      bind_run (Script.name_identifier hn hfirst), bind_run hparts, List.map_map]
    simp [Function.comp_def]
  rw [namesInBraces, bind_run (text_append _ _), bind_run hnames, bind_run (text_append _ _)]
  rfl

theorem stops_from (rest : List Char) : Stops Json.continuesToken (" from ".toList ++ rest) :=
  (stops_cons _ _ _).mpr rfl

/-- The default of a module is imported under a name. -/
theorem clause_name {name : String} (h : Script.isIdentifier name = true) (rest : List Char) :
    clause (name.toList ++ (" from ".toList ++ rest)) = some ([name], " from ".toList ++ rest) := by
  rw [clause, orElse_apply, map_apply, Script.name_identifier h (stops_from rest)]
  rfl

/-- Names of a module are imported in braces. -/
theorem clause_names {names : List String} (hne : names ≠ [])
    (h : ∀ n ∈ names, Script.isIdentifier n = true) (rest : List Char) :
    clause ("\x7b ".toList ++ ((", ".intercalate names).toList ++ (" \x7d".toList
      ++ (" from ".toList ++ rest)))) = some (names, " from ".toList ++ rest) := by
  have hname : ∀ s, Script.name ("\x7b ".toList ++ s) = none := fun _ => rfl
  rw [clause, orElse_apply, map_apply, hname, namesInBraces_run hne h]
  rfl

/-- The text of an import. -/
def importText (said origin : String) : String :=
  "import " ++ said ++ " from " ++ Script.quote origin ++ ";\n"

theorem toList_importText (said origin : String) (rest : List Char) :
    (importText said origin).toList ++ rest = "import ".toList ++ (said.toList ++ (" from ".toList
      ++ ((Script.quote origin).toList ++ (";\n".toList ++ rest)))) := by
  simp only [importText, String.toList_append, List.append_assoc]

/-- An import is read, whatever the module that it is from. -/
theorem importLine_run {said : String} {names : List String} (origin : String)
    (h : ∀ rest, clause (said.toList ++ (" from ".toList ++ rest))
      = some (names, " from ".toList ++ rest)) (rest : List Char) :
    importLine ((importText said origin).toList ++ rest) = some (names, rest) := by
  rw [toList_importText, importLine, bind_run (text_append _ _), bind_run (h _),
    bind_run (text_append _ _), bind_run (Script.stringLiteral_quote _ _), bind_run (text_append _ _)]
  rfl

/-- The text of names in braces. -/
def bracedText (names : List String) : String := "\x7b " ++ ", ".intercalate names ++ " \x7d"

theorem toList_bracedText (names : List String) (rest : List Char) :
    (bracedText names).toList ++ rest
      = "\x7b ".toList ++ ((", ".intercalate names).toList ++ (" \x7d".toList ++ rest)) := by
  simp only [bracedText, String.toList_append, List.append_assoc]

/-- The imports of a file are read up to the line without anything. -/
theorem many_importLine {tags : List String} (hne : tags ≠ [])
    (h : ∀ n ∈ tags, Script.isIdentifier n = true) (rest : List Char) :
    many importLine ((importText "React" "react").toList
        ++ ((importText (bracedText tags) "react-native").toList ++ '\n' :: rest))
      = some ([["React"], tags], '\n' :: rest) := by
  have hreact : Script.isIdentifier "React" = true := by decide
  have hclause : ∀ rest, clause ((bracedText tags).toList ++ (" from ".toList ++ rest))
      = some (tags, " from ".toList ++ rest) := by
    intro rest
    rw [toList_bracedText]
    exact clause_names hne h rest
  have hdefault := importLine_run "react" (clause_name hreact)
  have hnames := importLine_run "react-native" hclause
  have htext : ∀ said origin, (importText said origin).toList ≠ [] := by
    simp [importText]
  have hparts : ReadsParts importLine ('\n' :: rest)
      [((importText "React" "react").toList, ["React"]),
        ((importText (bracedText tags) "react-native").toList, tags)] :=
    .cons (htext _ _) (hdefault _) (.cons (htext _ _) (hnames _) .nil)
  have hmany := many_parts hparts (by simp [importLine, Parser.text])
  rwa [written_cons, written_cons, written_nil, List.append_nil, List.append_assoc] at hmany

/-! ### Reading the function -/

/-- The text that the function begins with. -/
def openingText (screens : Bool) (name : String) : String :=
  (if screens then "export default function " else "export function ") ++ name ++ "() \x7b\n"

/-- The function is exported by its name, or by default. -/
theorem opening_run (screens : Bool) {name : String} (h : Script.isIdentifier name = true)
    (rest : List Char) :
    opening ((openingText screens name).toList ++ rest) = some (name, rest) := by
  have hname : Script.name (name.toList ++ ("() \x7b\n".toList ++ rest))
      = some (name, "() \x7b\n".toList ++ rest) :=
    Script.name_identifier h ((stops_cons _ _ _).mpr rfl)
  have hwords : (if screens then "export default function " else "export function ")
      = "export " ++ (if screens then "default " else "") ++ "function " := by
    cases screens <;> rfl
  have htext : (openingText screens name).toList ++ rest = "export ".toList
      ++ ((if screens then "default " else "").toList ++ ("function ".toList
        ++ (name.toList ++ ("() \x7b\n".toList ++ rest)))) := by
    simp only [openingText, hwords, String.toList_append, List.append_assoc]
  have hdefault : ∀ s, ∃ found, option (Parser.text "default ".toList)
      ((if screens then "default " else "").toList ++ ("function ".toList ++ s))
        = some (found, "function ".toList ++ s) := by
    intro s
    cases screens with
    | true => exact ⟨some (), option_some (text_append _ _)⟩
    | false => exact ⟨none, option_none (by simp [Parser.text])⟩
  obtain ⟨found, hfound⟩ := hdefault (name.toList ++ ("() \x7b\n".toList ++ rest))
  rw [htext, opening, bind_run (text_append _ _), bind_run hfound, bind_run (text_append _ _),
    bind_run hname, bind_run (text_append _ _)]
  rfl

/-- The text that exports the function by default. -/
def defaultExportText (name : String) : String := "\nexport default " ++ name ++ ";\n"

theorem toList_defaultExportText (name : String) (rest : List Char) :
    (defaultExportText name).toList ++ rest
      = "\nexport default ".toList ++ (name.toList ++ (";\n".toList ++ rest)) := by
  change ("\nexport default " ++ name ++ ";\n").toList ++ rest = _
  rw [String.toList_append, String.toList_append, List.append_assoc, List.append_assoc]

theorem defaultExport_run {name : String} (h : Script.isIdentifier name = true) (rest : List Char) :
    defaultExport name ((defaultExportText name).toList ++ rest) = some ((), rest) := by
  have hname : Script.name (name.toList ++ (";\n".toList ++ rest)) = some (name, ";\n".toList ++ rest) :=
    Script.name_identifier h ((stops_cons _ _ _).mpr rfl)
  rw [toList_defaultExportText, defaultExport, bind_run (text_append _ _), bind_run hname, if_pos rfl]
  exact text_append _ _

/-! ### Reading a file -/

/-- The text of a file. -/
def fileText (screens : Bool) (tags : List String) (name code : String) : String :=
  importText "React" "react" ++ importText (bracedText tags) "react-native" ++ "\n"
    ++ openingText screens name ++ "  return (\n" ++ code ++ "\n  );\n\x7d\n"
    ++ if screens then "" else defaultExportText name

/-- A file is read that has the source of an element in it. -/
theorem read?_fileText (screens : Bool) {tags : List String} {name : String} {m : Markup}
    (hne : tags ≠ []) (htags : ∀ n ∈ tags, Script.isIdentifier n = true)
    (hname : Script.isIdentifier name = true) (hm : m.WellNamed) (indent : Nat) :
    read? (fileText screens tags name (m.source indent))
      = some ⟨"React" :: tags, name, Element.ofMarkup m⟩ := by
  have htext : (fileText screens tags name (m.source indent)).toList
      = (importText "React" "react").toList ++ ((importText (bracedText tags) "react-native").toList
        ++ '\n' :: ((openingText screens name).toList ++ ("  return (\n".toList
          ++ ((m.source indent).toList ++ ("\n  );\n\x7d\n".toList
            ++ (if screens then "" else defaultExportText name).toList))))) := by
    have hbreak : ∀ s, "\n".toList ++ s = '\n' :: s := fun _ => rfl
    simp only [fileText, String.toList_append, List.append_assoc, hbreak, List.cons_append]
  have hstop : ∀ rest, Element.piece ("\n  );\n\x7d\n".toList ++ rest) = none := by
    intro rest
    have hbracket : ∀ s, Element.piece ('\n' :: ' ' :: ' ' :: ')' :: s) = none := fun _ => rfl
    simpa using hbracket _
  have hexport : ∃ found, option (defaultExport name)
      (if screens then "" else defaultExportText name).toList = some (found, []) := by
    cases screens with
    | true => exact ⟨none, option_none rfl⟩
    | false =>
      have hrun := defaultExport_run hname []
      rw [List.append_nil] at hrun
      exact ⟨some (), option_some hrun⟩
  obtain ⟨found, hfound⟩ := hexport
  have hrun : source (fileText screens tags name (m.source indent)).toList
      = some (⟨"React" :: tags, name, Element.ofMarkup m⟩, []) := by
    rw [htext, source, bind_run (many_importLine hne htags _),
      bind_run (by rw [char_cons]; exact if_pos rfl), bind_run (opening_run screens hname _), bind_run (text_append _ _),
      bind_run (Element.element_source hm indent (hstop _)), bind_run (text_append _ _),
      bind_run hfound, pure_apply, List.flatten_cons, List.flatten_cons, List.flatten_nil,
      List.append_nil, List.singleton_append]
  rw [read?, Parser.run, hrun]

/-- The lines of a file make up its text. -/
theorem intercalate_fileLines (screens : Bool) (tags : List String) (name code : String) :
    "\n".intercalate (["import React from 'react';",
      "import \x7b " ++ ", ".intercalate tags ++ " \x7d from 'react-native';", ""]
      ++ [(if screens then "export default function " else "export function ") ++ name ++ "() \x7b",
        "  return (", code, "  );", "\x7d"]
      ++ (if screens then [] else ["", "export default " ++ name ++ ";"]) ++ [""])
      = fileText screens tags name code := by
  have hexport := toList_defaultExportText name []
  rw [List.append_nil, List.append_nil] at hexport
  apply String.toList_inj.mp
  cases screens with
  | true => simp [fileText, importText, bracedText, Script.quote, Script.escape, openingText]
  | false =>
    simp [fileText, importText, bracedText, Script.quote, Script.escape, openingText, hexport]

end Source

/-! ### The source of a component -/

namespace Primitive

theorem isIdentifier_tag (p : Primitive) : Script.isIdentifier p.tag = true := by
  cases p <;> decide

theorem mem_all (p : Primitive) : p ∈ all := by
  cases p <;> decide

theorem tag_injective : Function.Injective tag := by
  intro p q h
  cases p <;> cases q <;> first | rfl | exact absurd h (by decide)

end Primitive

namespace Component

/-- The primitives of a component are those that the widgets in it become. -/
theorem mem_primitives_iff (p : Primitive) (c : Component) :
    p ∈ c.primitives ↔ ∃ visit ∈ c.walk, Primitive.ofComponent visit.1 = p := by
  simp [primitives, Primitive.mem_all]

theorem primitives_ne_nil (c : Component) : c.primitives ≠ [] := by
  have hroot : (c, 0) ∈ c.walk := by
    cases c with
    | mk w children => exact List.mem_cons_self
  exact List.ne_nil_of_mem ((mem_primitives_iff _ c).mpr ⟨_, hroot, rfl⟩)

/-- The names that the source of a component imports. -/
def importedNames (c : Component) : List String := "React" :: c.primitives.map Primitive.tag

/-- What the source of a component under a name says. -/
def said (c : Component) (name : String) : Source := ⟨c.importedNames, name, c.shown⟩

/-- A component has a file under any name when it has a markup. -/
theorem exists_fileSource_iff (options : GenerationOptions) (name : String) (c : Component) :
    (∃ text, c.fileSource options name = .ok text) ↔ ∃ m, c.markup = .ok m := by
  rw [fileSource, emit]
  cases c.markup <;> simp [Except.map]

theorem exists_markup_of_fileSource {options : GenerationOptions} {name text : String} {c : Component}
    (h : c.fileSource options name = .ok text) : ∃ m, c.markup = .ok m :=
  (exists_fileSource_iff options name c).mp ⟨text, h⟩

/-- **The source of a component is read back**: what it imports, exports and shows. -/
theorem read?_fileSource {options : GenerationOptions} {name text : String} {c : Component}
    (hname : Script.isIdentifier name = true) (h : c.fileSource options name = .ok text) :
    Source.read? text = some (c.said name) := by
  obtain ⟨_, hmarkup⟩ := exists_markup_of_fileSource h
  obtain ⟨m, hm, hnamed, hshown⟩ := hasMarkup_of_markup hmarkup
  have htags : ∀ tag ∈ c.primitives.map Primitive.tag, Script.isIdentifier tag = true :=
    List.forall_mem_map.mpr fun p _ => p.isIdentifier_tag
  have hne : c.primitives.map Primitive.tag ≠ [] := mt List.map_eq_nil_iff.mp c.primitives_ne_nil
  have htext : text = Source.fileText options.screens (c.primitives.map Primitive.tag) name
      (m.source 4) := by
    rw [← Source.intercalate_fileLines]
    rw [fileSource, emit, hm] at h
    exact (Except.ok.inj h).symm
  rw [htext, Source.read?_fileText _ hne htags hname hnamed, hshown, said,
    importedNames]

/-- A component in which no text has widgets inside has a source. -/
theorem exists_fileSource (options : GenerationOptions) (name : String) {c : Component}
    (h : c.TextsAreLeaves) : ∃ text, c.fileSource options name = .ok text := by
  obtain ⟨m, hm, -⟩ := hasMarkup c h
  exact (exists_fileSource_iff options name c).mpr ⟨m, hm⟩

end Component

end Handoff
