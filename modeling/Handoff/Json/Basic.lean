import Handoff.Binary64.Layout

/-!
# JSON values

A JSON value with the order of its fields kept. Integers in the range of 64 bits
stand apart from other numbers, because some fields take integers only and
because the two are written differently.
-/

namespace Handoff

/-- A JSON value. -/
inductive Json where
  /-- The value `null`. -/
  | null
  /-- A truth value. -/
  | bool (value : Bool)
  /-- A number without point and exponent. -/
  | integer (value : Int)
  /-- Any other number. -/
  | float (value : Binary64)
  /-- A text. -/
  | string (value : String)
  /-- A list of values. -/
  | array (items : List Json)
  /-- Values under names, in order. -/
  | object (fields : List (String × Json))

namespace Json

/-- The fields of an object, in order. -/
abbrev Fields := List (String × Json)

/-- Puts a value under a name: in the place of the one it has there, or last. -/
def Fields.insert (name : String) (value : Json) : Fields → Fields
  | [] => [(name, value)]
  | (other, old) :: more =>
    if other = name then (name, value) :: more else (other, old) :: Fields.insert name value more

/--
The object with the given fields. Of a name that is repeated the first place and the last value
count.
-/
def ofFields (fields : Fields) : Json :=
  .object (fields.foldl (fun sofar (name, value) => Fields.insert name value sofar) [])

/-- A number as JSON. Infinity and no number have no form in JSON and become `null`. -/
def ofBinary64 (x : Binary64) : Json := if x.isFinite then .float x else .null

/-- A quantity as JSON: an integer where it is whole and below `10 ^ 15`. -/
def quantity (x : Binary64) : Json :=
  match x.asInteger? with
  | some n => .integer n
  | none => ofBinary64 x

/-! ### Building objects -/

/-- A field that is left out when there is no value. -/
def ifSome {α : Type} (name : String) (write : α → Json) : Option α → Fields
  | some a => [(name, write a)]
  | none => []

/-- A field that is left out when the list is empty. -/
def ifAny {α : Type} (name : String) (write : α → Json) : List α → Fields
  | [] => []
  | a :: more => [(name, .array ((a :: more).map write))]

end Json

end Handoff
