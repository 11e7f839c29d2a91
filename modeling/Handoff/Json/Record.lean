import Handoff.Json.Basic

/-!
# Records in JSON

How typed values are read from JSON. A record is an object, in which names that
nobody asks for are passed over, or the list of its values in the order of their
names. Fields are required, optional, or have a default; an optional one may be
`null`. A named constant is its name, or the object with that name and `null`.
-/

namespace Handoff.Json

variable {α : Type}

/-! ### Plain values -/

/-- A truth value. -/
def bool? : Json → Option Bool
  | .bool b => some b
  | _ => none

/-- A text. -/
def string? : Json → Option String
  | .string s => some s
  | _ => none

/-- A number, written in either way. -/
def number? : Json → Option Binary64
  | .integer n => some (.ofInt n)
  | .float x => some x
  | _ => none

/-- An integer from `0` up to and without `limit`. -/
def natBelow? (limit : Nat) : Json → Option Nat
  | .integer n => if 0 ≤ n ∧ n < limit then some n.toNat else none
  | _ => none

/-- An integer of 8 bits without a sign. -/
def uint8? (v : Json) : Option UInt8 := (natBelow? 256 v).map .ofNat

/-- An integer of 16 bits without a sign. -/
def uint16? (v : Json) : Option UInt16 := (natBelow? 65536 v).map .ofNat

/-- A list whose items are all read by `read`. -/
def list? (read : Json → Option α) : Json → Option (List α)
  | .array items => items.mapM read
  | _ => none

/-! ### Named constants -/

/-- The name of a constant. -/
def constant? : Json → Option String
  | .string name => some name
  | .object [(name, .null)] => some name
  | _ => none

/-- The constant among `all` that has the name given. -/
def oneOf? (all : List α) (name : α → String) (v : Json) : Option α :=
  v.constant?.bind fun given => all.find? fun a => name a == given

/-- The constant among `all` that has the name given, or `other` for any other name. -/
def oneOfOr (other : α) (all : List α) (name : α → String) (v : Json) : Option α :=
  v.constant?.map fun given => (all.find? fun a => name a == given).getD other

/-! ### Records -/

/-- The fields of a record whose fields have these names, in this order. -/
def record? (names : List String) : Json → Option Fields
  | .object fields => some fields
  | .array items => if items.length ≤ names.length then some (names.zip items) else none
  | _ => none

namespace Fields

/-- A field that must be there. -/
def required (fields : Fields) (name : String) (read : Json → Option α) : Option α :=
  (fields.lookup name).bind read

/-- A field that may be missing or `null`. -/
def optional (fields : Fields) (name : String) (read : Json → Option α) : Option (Option α) :=
  match fields.lookup name with
  | none | some .null => some none
  | some v => (read v).map some

/-- A field that may be missing, in which case it has the value `default`. -/
def orDefault (fields : Fields) (name : String) (read : Json → Option α) (default : α) : Option α :=
  match fields.lookup name with
  | none => some default
  | some v => read v

end Fields

end Handoff.Json
