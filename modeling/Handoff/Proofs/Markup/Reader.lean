import Handoff.Markup.Basic
import Handoff.Proofs.Json.Quoted
import Handoff.Proofs.Script.Literal

/-!
# Reading elements

The source of an element is read in two steps. A parser cuts it into pieces:
tags with their attributes, texts, and layout. Then the pieces are put together
with the elements that are still open on a stack, so that a closing tag closes
the element opened last and has to bear its name.

The reader knows these rules. An attribute in double quotes stands for its
characters, and `&` has no place there. Braces hold a string in double quotes as
JSON has it, or a script literal. A bare text stands for its characters; it has
none of `{`, `}`, `<`, `>`, `&` and no break of a line, and ends where a tag or a
brace begins. A break of a line with the blanks after it stands for nothing.
Whatever else could be written in an element is refused.
-/

namespace Handoff

open Handoff.Parser

/-- What stands in the source: a text, or a tag with its attributes and what is inside. -/
inductive Element where
  /-- A text. -/
  | text (content : String)
  /-- A tag with its attributes, in order, and what is inside, in order. -/
  | tagged (tag : String) (attributes : List (String × Script.Value)) (inside : List Element)

namespace Element

/-! ### Pieces -/

/-- A piece of the source. -/
inductive Piece where
  /-- A tag that opens an element. -/
  | opening (tag : String) (attributes : List (String × Script.Value))
  /-- A tag that is an element by itself. -/
  | single (tag : String) (attributes : List (String × Script.Value))
  /-- A tag that closes an element. -/
  | closing (tag : String)
  /-- A text. -/
  | content (text : String)
  /-- A break of a line with the blanks after it. -/
  | layout

/-- The name of a tag or an attribute: letters and digits. -/
def word : Parser String := do
  return .ofList (← takeWhile1 Char.isAlphanum)

/-- An expression in braces. -/
def container : Parser Script.Value := do
  char '\x7b'
  let value ← Script.expression <|> (Script.Value.string <$> Json.stringLiteral)
  char '\x7d'
  return value

/-- A text in double quotes. -/
def quoted : Parser Script.Value := do
  char '"'
  let cs ← takeWhile fun c => c ≠ '"'
  char '"'
  if '&' ∈ cs then failure else return .string (.ofList cs)

/-- An attribute, after a blank. -/
def namedValue : Parser (String × Script.Value) := do
  char ' '
  let name ← word
  char '='
  return (name, ← quoted <|> container)

/-- Where a tag ends that opens an element or is one. -/
def tagEnd (tag : String) (attributes : List (String × Script.Value)) : Parser Piece :=
  (Parser.text [' ', '/', '>'] *> pure (.single tag attributes))
    <|> (char '>' *> pure (.opening tag attributes))

/-- A tag that opens an element or is one. -/
def startTag : Parser Piece := do
  char '<'
  let tag ← word
  let attributes ← many namedValue
  tagEnd tag attributes

/-- A tag that closes an element. -/
def endTag : Parser Piece := do
  Parser.text ['<', '/']
  let tag ← word
  char '>'
  return .closing tag

/-- Whether a tag or a brace begins here. -/
def beginsMarkup (s : List Char) : Bool := s.head? = some '<' || s.head? = some '\x7b'

/-- Whether a character stands for itself between tags. -/
def isBare (c : Char) : Bool := c ∉ ['\x7b', '\x7d', '<', '>', '&', '\n', '\r']

/-- A bare text. -/
def bareText : Parser Piece := do
  let cs ← takeWhile1 isBare
  look beginsMarkup
  return .content (.ofList cs)

/-- A text that is given as an expression. -/
def textExpression : Parser Piece := do
  match ← container with
  | .string s => return .content s
  | _ => failure

/-- A break of a line with the blanks after it. -/
def layout : Parser Piece := do
  let _ ← satisfy fun c => c = '\n' || c = '\r'
  let _ ← takeWhile Script.isBlank
  look beginsMarkup
  return .layout

/-- The next piece. -/
def piece : Parser Piece := startTag <|> endTag <|> layout <|> bareText <|> textExpression

/-! ### Elements -/

/-- An element whose closing tag has not been read. -/
structure Open where
  /-- The tag. -/
  tag : String
  /-- The attributes. -/
  attributes : List (String × Script.Value)
  /-- What is inside so far. -/
  inside : List Element

/-- How far the reading has come. -/
inductive Reading where
  /-- Elements are open, the one opened last in front. -/
  | within (stack : List Open)
  /-- One whole element has been read. -/
  | done (e : Element)

/-- Where an element or a text goes that has been read in full. -/
def put (e : Element) : List Open → Reading
  | [] => .done e
  | o :: outer => .within ({ o with inside := o.inside ++ [e] } :: outer)

/-- One piece more. A closing tag closes what was opened last, and nothing follows the element. -/
def step : Reading → Piece → Option Reading
  | .done _, _ => none
  | .within stack, .opening tag attributes => some (.within (⟨tag, attributes, []⟩ :: stack))
  | .within stack, .single tag attributes => some (put (.tagged tag attributes []) stack)
  | .within (o :: outer), .closing tag =>
    if tag = o.tag then some (put (.tagged tag o.attributes o.inside) outer) else none
  | .within (o :: outer), .content t => some (put (.text t) (o :: outer))
  | .within (o :: outer), .layout => some (.within (o :: outer))
  | .within [], _ => none

/-- The one element that a text holds, after blanks. -/
def read? (s : String) : Option Element := do
  let pieces ← (takeWhile (· = ' ') *> many piece).run s.toList
  match ← pieces.foldlM step (.within []) with
  | .done e => some e
  | .within _ => none

end Element

end Handoff
