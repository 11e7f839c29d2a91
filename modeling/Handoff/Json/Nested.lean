import Handoff.Json.Record
import Handoff.Tree

/-!
# Trees in JSON

A tree is written as the record of its root with one field more: `children`
holds the subtrees and is left out where there are none. As a list of values the
subtrees come last.
-/

namespace Handoff.Tree

open Json

variable {α : Type}

mutual
/-- The tree whose roots are records with the given names, read by `read`. -/
def ofJson? (names : List String) (read : Fields → Option α) : Json → Option (Tree α)
  | .object fields =>
    (read fields).bind fun value => (childrenIn? names read fields).map (⟨value, ·⟩)
  | .array items =>
    if items.length ≤ names.length + 1 then
      (read (names.zip items)).bind fun value =>
        (childrenAfter? names read names.length items).map (⟨value, ·⟩)
    else none
  | _ => none
/-- The subtrees under the name `children`. -/
def childrenIn? (names : List String) (read : Fields → Option α) :
    List (String × Json) → Option (List (Tree α))
  | [] => some []
  | (name, value) :: more =>
    if name == "children" then subtrees? names read value else childrenIn? names read more
/-- The subtrees in the list of values, after `count` others. -/
def childrenAfter? (names : List String) (read : Fields → Option α) :
    Nat → List Json → Option (List (Tree α))
  | _, [] => some []
  | 0, value :: _ => subtrees? names read value
  | count + 1, _ :: more => childrenAfter? names read count more
/-- The trees of a list. -/
def subtrees? (names : List String) (read : Fields → Option α) : Json → Option (List (Tree α))
  | .array items => allOfJson? names read items
  | _ => none
/-- The trees of all the values. -/
def allOfJson? (names : List String) (read : Fields → Option α) :
    List Json → Option (List (Tree α))
  | [] => some []
  | item :: more =>
    (ofJson? names read item).bind fun t => (allOfJson? names read more).map (t :: ·)
end

mutual
/-- The record of the root with the subtrees under `children`. -/
def toJson (write : α → Fields) : Tree α → Json
  | ⟨value, []⟩ => .object (write value)
  | ⟨value, child :: more⟩ =>
    .object (write value ++ [("children", .array (allToJson write (child :: more)))])
/-- The records of all the trees. -/
def allToJson (write : α → Fields) : List (Tree α) → List Json
  | [] => []
  | t :: ts => toJson write t :: allToJson write ts
end

end Handoff.Tree
