import Mathlib.Algebra.BigOperators.Group.List.Basic
import Mathlib.Algebra.GroupWithZero.Nat
import ComponentAtlas.Proofs.Table
import ComponentAtlas.Tally

/-!
Counts as tables. Every item that is counted adds to the row of what it counts, so a tally is told
by its items: what was seen first comes first, with the sum of what was added for it, and all sums
together are what was added at all.
-/

namespace ComponentAtlas.Tally

variable {α : Type}

section Table

/-- How a count enters a tally: what is counted has a row, and further counts are added to it. -/
def counting (α : Type) : Entry (α × ℕ) (α × ℕ) α where
  itemKey := Prod.fst
  rowKey := Prod.fst
  start := id
  change item row := (row.1, row.2 + item.2)
  rowKey_start _ := rfl
  rowKey_change _ _ := rfl

theorem rowOf?_counting {items : List (α × ℕ)} {a : α} (some_item : items ≠ [])
    (same : ∀ item ∈ items, item.1 = a) :
    (counting α).rowOf? items = some (a, (items.map Prod.snd).sum) := by
  induction items using List.reverseRecOn with
  | nil => exact absurd rfl some_item
  | append_singleton items item ih =>
      have here : item.1 = a := same item (by simp)
      rw [Entry.rowOf?_concat]
      rcases List.eq_nil_or_concat items with rfl | ⟨_, _, rfl⟩
      · simp [Entry.rowOf?, counting, ← here]
      · rw [ih (by simp) fun i hi => same i (List.mem_append_left _ hi)]
        simp [counting, Nat.add_assoc]

variable [DecidableEq α]

theorem add_eq_enter (t : Tally α) (a : α) (n : ℕ) : t.add a n = (counting α).enter (a, n) t := by
  induction t with
  | nil => rfl
  | cons row rest ih => rw [add, ih]; rfl

/-- A run of counts is the table of its items. -/
theorem foldl_add_eq_table (items : List (α × ℕ)) :
    items.foldl (fun t item => t.add item.1 item.2) empty = (counting α).table items := by
  simp only [add_eq_enter]
  rfl

/-- What was counted, in the order in which it was first seen, with the sum of its counts. -/
theorem table_counting (items : List (α × ℕ)) :
    (counting α).table items = (items.map Prod.fst).eraseDups.map fun a =>
      (a, ((items.filter (·.1 = a)).map Prod.snd).sum) := by
  have rows : ∀ a ∈ (items.map Prod.fst).eraseDups,
      (counting α).rowOf? ((counting α).itemsOf items a) =
        some (a, ((items.filter (·.1 = a)).map Prod.snd).sum) := by
    intro a known
    obtain ⟨item, member, same⟩ := List.mem_map.mp (List.mem_eraseDups.mp known)
    have counted : item ∈ items.filter (·.1 = a) :=
      List.mem_filter.mpr ⟨member, decide_eq_true same⟩
    refine rowOf?_counting (List.ne_nil_of_mem counted) fun other found => ?_
    exact of_decide_eq_true (List.mem_filter.mp found).2
  rw [Entry.table_eq]
  exact (List.filterMap_congr rows).trans (congrFun List.filterMap_eq_map _)

@[simp]
theorem sum_add (t : Tally α) (a : α) (n : ℕ) :
    ((t.add a n).map Prod.snd).sum = (t.map Prod.snd).sum + n := by
  induction t with
  | nil => simp [add]
  | cons row rest ih =>
      rw [add]
      split
      · simp only [List.map_cons, List.sum_cons]
        omega
      · simp [ih, Nat.add_assoc]

@[simp]
theorem sum_table (items : List (α × ℕ)) :
    (((counting α).table items).map Prod.snd).sum = (items.map Prod.snd).sum := by
  induction items using List.reverseRecOn with
  | nil => rfl
  | append_singleton items item ih =>
      rw [Entry.table_concat, ← add_eq_enter, sum_add, ih]
      simp

end Table

section Lists

theorem map_fst_counted (as : List α) (n : ℕ) : (as.map fun b => (b, n)).map Prod.fst = as := by
  rw [List.map_map]
  exact List.map_id as

theorem sum_counted (as : List α) (n : ℕ) :
    ((as.map fun b => (b, n)).map Prod.snd).sum = as.length * n := by
  simp [Function.comp_def]

variable [DecidableEq α]

/-- What items that all count the same add for one of them. -/
theorem sum_filter_counted (as : List α) (n : ℕ) (a : α) :
    (((as.map fun b => (b, n)).filter (·.1 = a)).map Prod.snd).sum = as.count a * n := by
  induction as with
  | nil => simp
  | cons b as ih =>
      by_cases same : b = a
      · simp [same, ih, Nat.succ_mul, Nat.add_comm]
      · simp [same, ih]

theorem ofList_eq_table (as : List α) :
    ofList as = (counting α).table (as.map fun a => (a, 1)) := by
  rw [← foldl_add_eq_table, List.foldl_map]
  rfl

/-- A tally of a list holds how often each item is in it, the items in the order in which they first
come. -/
theorem ofList_eq (as : List α) : ofList as = as.eraseDups.map fun a => (a, as.count a) := by
  rw [ofList_eq_table, table_counting, map_fst_counted]
  simp only [sum_filter_counted, Nat.mul_one]

theorem ofList_map_eq {β : Type} (f : β → α) (bs : List β) :
    ofList (bs.map f) = (bs.map f).eraseDups.map fun a => (a, bs.countP (f · = a)) := by
  rw [ofList_eq]
  refine List.map_congr_left fun a _ => ?_
  rw [List.count, List.countP_map]
  rfl

theorem sum_ofList (as : List α) : ((ofList as).map Prod.snd).sum = as.length := by
  rw [ofList_eq_table, sum_table, sum_counted, Nat.mul_one]

end Lists

end ComponentAtlas.Tally
