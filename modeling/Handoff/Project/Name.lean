/-!
# Names of components and files

Layer names become identifiers of components and names of files. A layer name
is taken apart into words of ASCII letters and digits: other characters divide
words, and so do a capital after a small letter, a change between letters and
digits, and the last of several capitals if a small letter follows it. Names
that are used already get the smallest free number from two on.
-/

namespace Handoff.Name

/-! ### Words -/

/-- Whether a word ends between two characters, given the character after them. -/
def divides (c d : Char) (next : Option Char) : Bool :=
  (c.isLower && d.isUpper)
    || (c.isAlpha && d.isDigit)
    || (c.isDigit && d.isAlpha)
    || (c.isUpper && d.isUpper && next.any Char.isLower)

/-- The words of a run of letters and digits. -/
def splitRun : List Char → List (List Char)
  | [] => []
  | [c] => [[c]]
  | c :: d :: rest =>
    let words := splitRun (d :: rest)
    if divides c d rest.head? then [c] :: words
    else match words with
      | word :: more => (c :: word) :: more
      | [] => [[c]]

/-- The runs of letters and digits in a name. -/
def runs (name : String) : List (List Char) :=
  (name.toList.splitOnP fun c => !c.isAlphanum).filter fun run => !run.isEmpty

/-- The words of a name. -/
def words (name : String) : List (List Char) := (runs name).flatMap splitRun

/-- The word with a capital first and small letters after it. -/
def capitalized : List Char → List Char
  | [] => []
  | c :: rest => c.toUpper :: rest.map Char.toLower

/-! ### Names -/

/-- The identifier of a component: the words with capitals, or `Component` where there are none. -/
def identifier (words : List (List Char)) : String :=
  match words.flatMap capitalized with
  | [] => "Component"
  | c :: rest => if c.isDigit then "Component" ++ .ofList (c :: rest) else .ofList (c :: rest)

/--
The name of a screen file: the words in lowercase joined by dashes, or `screen` where there are
none.
-/
def stem (words : List (List Char)) : String :=
  match ['-'].intercalate (words.map fun word => word.map Char.toLower) with
  | [] => "screen"
  | joined => .ofList joined

/-- The identifier of a component with the name given. -/
def component (name : String) : String := identifier (words name)

/-- The name of the file of a screen with the name given. -/
def screen (name : String) : String := stem (words name)

/-! ### Unique names -/

/-- A name with a number behind it. -/
def numbered (base : String) (n : Nat) : String := base ++ n.repr

theorem toList_numbered (base : String) (n : Nat) :
    (numbered base n).toList = base.toList ++ Nat.toDigits 10 n := by
  rw [numbered, String.toList_append, Nat.toList_repr]

theorem numbered_injective {base : String} {m n : Nat} (h : numbered base m = numbered base n) :
    m = n := by
  have hlist := congrArg String.toList h
  rw [toList_numbered, toList_numbered, List.append_cancel_left_eq] at hlist
  rw [← Nat.ofDigitChars_ten_toDigits (n := m), hlist, Nat.ofDigitChars_ten_toDigits]

theorem numbered_ne_self (base : String) (n : Nat) : numbered base n ≠ base := by
  intro h
  have hlist := congrArg String.toList h
  rw [toList_numbered, List.append_right_eq_self] at hlist
  exact Nat.toDigits_ne_nil hlist

/-- What is tried after `k` others: the name itself first, then the name with the numbers from two
on. -/
def candidate (base : String) : Nat → String
  | 0 => base
  | k + 1 => numbered base (k + 2)

/-- Nothing is tried twice. -/
theorem candidate_injective {base : String} {j k : Nat} (h : candidate base j = candidate base k) :
    j = k := by
  cases j with
  | zero =>
    cases k with
    | zero => rfl
    | succ k => exact absurd h.symm (numbered_ne_self base (k + 2))
  | succ j =>
    cases k with
    | zero => exact absurd h (numbered_ne_self base (j + 2))
    | succ k => exact congrArg (· - 1) (numbered_injective h)

/-- The names in use that are none of the first `k` to be tried. -/
def untried (base : String) (k : Nat) (taken : List String) : List String :=
  taken.filter fun name => ∀ j < k, name ≠ candidate base j

/-- One try that fails leaves fewer names that can make a later one fail. -/
theorem length_untried_lt {base : String} {k : Nat} {taken : List String}
    (h : candidate base k ∈ taken) :
    (untried base (k + 1) (taken.insert (candidate base k))).length
      < (untried base k taken).length := by
  have hmem : candidate base k ∈ untried base k taken := by
    refine List.mem_filter.mpr ⟨h, decide_eq_true fun j hj heq => ?_⟩
    exact Nat.ne_of_gt hj (candidate_injective heq)
  have hnext : untried base (k + 1) taken
      = (untried base k taken).filter fun name => name ≠ candidate base k := by
    rw [untried, untried, List.filter_filter]
    refine List.filter_congr fun name _ => ?_
    simp only [Nat.lt_succ_iff_lt_or_eq, or_imp, forall_and, forall_eq, Bool.decide_and,
      Bool.and_comm]
  rw [List.insert_of_mem h, hnext, List.length_filter_lt_length_iff_exists]
  exact ⟨candidate base k, hmem, by simp⟩

/--
The first name that is free, after `k` names were tried, and the names in use with it. Each name
that is tried is added to those in use.
-/
def uniqueFrom (base : String) (k : Nat) (taken : List String) : String × List String :=
  let name := candidate base k
  let used := taken.insert name
  if name ∈ taken then uniqueFrom base (k + 1) used else (name, used)
termination_by (untried base k taken).length
decreasing_by exact length_untried_lt ‹_›

/-- The name itself if it is free, else the name with the smallest number that makes it free. -/
def unique (taken : List String) (base : String) : String × List String := uniqueFrom base 0 taken

/-- A free name for each of the names in turn. -/
def assign (taken : List String) : List String → List String
  | [] => []
  | base :: more =>
    let (name, used) := unique taken base
    name :: assign used more

end Handoff.Name
