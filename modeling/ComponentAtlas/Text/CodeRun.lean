/-!
Sets of characters as sorted runs of code points. Membership is a bisection over the runs.
-/

namespace ComponentAtlas.Text

/-- The code points `first`, `first + step`, … up to `last`. -/
structure CodeRun where
  first : Nat
  last : Nat
  step : Nat

namespace CodeRun

def contains (r : CodeRun) (n : Nat) : Bool :=
  r.first ≤ n && n ≤ r.last && (n - r.first) % r.step == 0

/-- The element of `items[lo..hi)` whose run spans `n`, where the runs ascend and are apart. -/
def bisect {α : Type} (span : α → CodeRun) (items : Array α) (n lo hi : Nat) : Option α :=
  if lo < hi then
    let mid := (lo + hi) / 2
    match items[mid]? with
    | none => none
    | some a =>
      if n < (span a).first then bisect span items n lo mid
      else if (span a).last < n then bisect span items n (mid + 1) hi
      else some a
  else none
termination_by hi - lo

/-- Whether one of the ascending runs contains `n`. -/
def anyContains (runs : Array CodeRun) (n : Nat) : Bool :=
  match bisect id runs n 0 runs.size with
  | some r => r.contains n
  | none => false

end CodeRun

end ComponentAtlas.Text
