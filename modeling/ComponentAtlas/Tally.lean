/-!
Counts in the order in which what they count was first seen.
-/

namespace ComponentAtlas

abbrev Tally (α : Type) := List (α × Nat)

namespace Tally

variable {α : Type} [DecidableEq α]

def empty : Tally α := []

/-- Adds to the count of `a`, which starts at zero. -/
def add (t : Tally α) (a : α) (n : Nat) : Tally α :=
  match t with
  | [] => [(a, n)]
  | (b, m) :: rest => if b = a then (b, m + n) :: rest else (b, m) :: Tally.add rest a n

def count (t : Tally α) (a : α) : Nat :=
  match t with
  | [] => 0
  | (b, m) :: rest => if b = a then m else count rest a

def ofList (as : List α) : Tally α := as.foldl (fun t a => t.add a 1) empty

end Tally

end ComponentAtlas
