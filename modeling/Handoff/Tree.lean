/-!
# Rose trees

A tree is a value with a list of subtrees; a forest is a list of trees. Design
layers and converted components are both trees, so what only depends on the
shape is kept here: visiting every subtree parents first, searching in that
order, cutting below chosen nodes or below a depth, and counting.

Each function on trees comes with its companion on forests. The companions are
written by recursion on the list, so that every function here is structural.
-/

namespace Handoff

/-- A value with its subtrees, in order. -/
structure Tree (α : Type) where
  /-- What sits at the root. -/
  value : α
  /-- The subtrees below the root. -/
  children : List (Tree α)

/-- Trees side by side. -/
abbrev Forest (α : Type) := List (Tree α)

namespace Tree

variable {α β : Type}

/-- The tree with `value` alone. -/
def leaf (value : α) : Tree α := ⟨value, []⟩

/-- The tree with one more subtree, after those it has. -/
def push (t child : Tree α) : Tree α := ⟨t.value, t.children ++ [child]⟩

/-! ### Visiting -/

mutual
/--
Every subtree with its depth, parents before children, siblings in order. The root is at `depth`.
-/
def walkFrom (depth : Nat) : Tree α → List (Tree α × Nat)
  | ⟨value, children⟩ => (⟨value, children⟩, depth) :: walkAllFrom (depth + 1) children
/-- The visits of one tree after the other, each root at `depth`. -/
def walkAllFrom (depth : Nat) : List (Tree α) → List (Tree α × Nat)
  | [] => []
  | t :: ts => walkFrom depth t ++ walkAllFrom depth ts
end

/-- Every subtree with its depth below the root. -/
def walk (t : Tree α) : List (Tree α × Nat) := t.walkFrom 0

mutual
/-- The values in visiting order. -/
def values : Tree α → List α
  | ⟨value, children⟩ => value :: valuesAll children
/-- The values of one tree after the other. -/
def valuesAll : List (Tree α) → List α
  | [] => []
  | t :: ts => values t ++ valuesAll ts
end

mutual
/-- The number of nodes. -/
def count : Tree α → Nat
  | ⟨_, children⟩ => 1 + countAll children
/-- The number of nodes of all the trees. -/
def countAll : List (Tree α) → Nat
  | [] => 0
  | t :: ts => count t + countAll ts
end

/-! ### Searching -/

mutual
/-- The first subtree in visiting order whose root satisfies `p`. -/
def find? (p : α → Bool) : Tree α → Option (Tree α)
  | ⟨value, children⟩ => if p value then some ⟨value, children⟩ else findIn? p children
/-- The first such subtree of the first tree that has one. -/
def findIn? (p : α → Bool) : List (Tree α) → Option (Tree α)
  | [] => none
  | t :: ts => (find? p t).or (findIn? p ts)
end

/-! ### Reshaping -/

mutual
/-- The same shape with every value replaced. -/
def map (f : α → β) : Tree α → Tree β
  | ⟨value, children⟩ => ⟨f value, mapAll f children⟩
/-- `map` on each tree. -/
def mapAll (f : α → β) : List (Tree α) → List (Tree β)
  | [] => []
  | t :: ts => map f t :: mapAll f ts
end

mutual
/-- The tree without anything below a node that satisfies `stop`. -/
def cut (stop : α → Bool) : Tree α → Tree α
  | ⟨value, children⟩ => ⟨value, if stop value then [] else cutAll stop children⟩
/-- `cut` on each tree. -/
def cutAll (stop : α → Bool) : List (Tree α) → List (Tree α)
  | [] => []
  | t :: ts => cut stop t :: cutAll stop ts
end

mutual
/-- The tree without anything more than `depth` levels below the root. -/
def truncate (depth : Nat) : Tree α → Tree α
  | ⟨value, children⟩ =>
    ⟨value, match depth with
      | 0 => []
      | below + 1 => truncateAll below children⟩
/-- `truncate` on each tree. -/
def truncateAll (depth : Nat) : List (Tree α) → List (Tree α)
  | [] => []
  | t :: ts => truncate depth t :: truncateAll depth ts
end

end Tree

namespace Forest

variable {α : Type}

/-- Every subtree of the forest with its depth, roots at depth zero. -/
def walk (ts : Forest α) : List (Tree α × Nat) := Tree.walkAllFrom 0 ts

/-- The values of the forest in visiting order. -/
def values (ts : Forest α) : List α := Tree.valuesAll ts

/-- The first subtree in visiting order whose root satisfies `p`. -/
def find? (p : α → Bool) (ts : Forest α) : Option (Tree α) := Tree.findIn? p ts

end Forest

end Handoff
