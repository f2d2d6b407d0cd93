import Mathlib.Data.List.Induction
import Mathlib.Data.List.Nodup

/-!
Tables kept as lists of rows. An item of a new key makes a row at the end, and an item of a known
key changes the row in its place. A table is told by its keys, in the order in which they first
came, and by what the items of one key make of its row.
-/

namespace ComponentAtlas

section Lookup

variable {κ α : Type} [BEq κ] [LawfulBEq κ] {entries : List (κ × α)} {k : κ}

theorem lookup_isSome_iff_mem : (entries.lookup k).isSome ↔ k ∈ entries.map (·.1) := by
  rw [List.lookup_isSome_iff, List.mem_map]
  simp only [beq_iff_eq, eq_comm (a := k)]

theorem lookup_of_mem (h : k ∈ entries.map (·.1)) : ∃ a, entries.lookup k = some a :=
  Option.isSome_iff_exists.mp (lookup_isSome_iff_mem.mpr h)

theorem lookup_of_not_mem (h : k ∉ entries.map (·.1)) : entries.lookup k = none :=
  Option.not_isSome_iff_eq_none.mp (mt lookup_isSome_iff_mem.mp h)

theorem mem_of_lookup {a : α} (h : entries.lookup k = some a) : (k, a) ∈ entries := by
  obtain ⟨before, after, shape, _⟩ := List.lookup_eq_some_iff.mp h
  exact shape ▸ List.mem_append_right _ List.mem_cons_self

end Lookup

section Repetitions

variable {α : Type} [BEq α] [LawfulBEq α]

theorem eraseDups_concat (as : List α) (a : α) :
    (as ++ [a]).eraseDups = if a ∈ as then as.eraseDups else as.eraseDups ++ [a] := by
  rw [List.eraseDups_append]
  by_cases h : a ∈ as
  · simp [List.removeAll, h]
  · simp [List.removeAll, h, List.eraseDups_cons]

theorem eraseDups_nodup (as : List α) : as.eraseDups.Nodup := by
  induction as using List.reverseRecOn with
  | nil => exact List.nodup_nil
  | append_singleton as a ih =>
      rw [eraseDups_concat]
      split
      · exact ih
      · rename_i fresh
        have fresh' : a ∉ as.eraseDups := fun h => fresh (List.mem_eraseDups.mp h)
        simpa only [← List.concat_eq_append, List.nodup_concat] using ⟨fresh', ih⟩

theorem eraseDups_of_nodup {as : List α} (h : as.Nodup) : as.eraseDups = as := by
  induction as using List.reverseRecOn with
  | nil => rfl
  | append_singleton as a ih =>
      rw [← List.concat_eq_append, List.nodup_concat] at h
      rw [eraseDups_concat, if_neg h.1, ih h.2]

/-- Adding the items that are not there yet, one after the other. -/
theorem foldl_addMissing (as bs : List α) :
    bs.foldl (fun seen b => if b ∈ seen then seen else seen ++ [b]) as.eraseDups =
      (as ++ bs).eraseDups := by
  induction bs generalizing as with
  | nil => rw [List.foldl_nil, List.append_nil]
  | cons b bs ih =>
      have step : (if b ∈ as.eraseDups then as.eraseDups else as.eraseDups ++ [b]) =
          (as ++ [b]).eraseDups := by
        simp only [eraseDups_concat, List.mem_eraseDups]
      rw [List.foldl_cons, step, ih, List.append_assoc]
      rfl

/-- Grouped by keys that differ, items are only put in another order. -/
theorem flatMap_filter_perm {α κ : Type} [DecidableEq κ] {key : α → κ} {keys : List κ}
    (differ : keys.Nodup) {as : List α} (covered : ∀ a ∈ as, key a ∈ keys) :
    (keys.flatMap fun k => as.filter (key · = k)).Perm as := by
  induction keys generalizing as with
  | nil =>
      cases as with
      | nil => exact .refl _
      | cons a as => exact absurd (covered a List.mem_cons_self) List.not_mem_nil
  | cons k keys ih =>
      rw [List.nodup_cons] at differ
      have others : ∀ j ∈ keys, as.filter (key · = j) =
          (as.filter fun a => !decide (key a = k)).filter (key · = j) := by
        intro j hj
        have apart : j ≠ k := fun e => differ.1 (e ▸ hj)
        rw [List.filter_filter]
        refine List.filter_congr fun a _ => ?_
        by_cases same : key a = j <;> simp [same, apart]
      have covered_later : ∀ a ∈ as.filter fun a => !decide (key a = k), key a ∈ keys := by
        intro a ha
        obtain ⟨member, other⟩ := List.mem_filter.mp ha
        exact (List.mem_cons.mp (covered a member)).resolve_left (by simpa using other)
      rw [List.flatMap_cons, List.flatMap_congr others]
      exact ((ih differ.2 covered_later).append_left _).trans (List.filter_append_perm _ _)

end Repetitions

/-- How items enter a table: the first item of a key starts a row, later ones change it. -/
structure Entry (α β κ : Type) where
  itemKey : α → κ
  rowKey : β → κ
  start : α → β
  change : α → β → β
  rowKey_start : ∀ a, rowKey (start a) = itemKey a
  rowKey_change : ∀ a row, rowKey (change a row) = rowKey row

namespace Entry

variable {α β κ : Type} (E : Entry α β κ)

/-- The row that items of one key make. -/
def rowOf? : List α → Option β
  | [] => none
  | a :: rest => some (rest.foldl (fun row b => E.change b row) (E.start a))

theorem rowOf?_concat (items : List α) (a : α) :
    E.rowOf? (items ++ [a]) = some ((E.rowOf? items).elim (E.start a) (E.change a)) := by
  cases items with
  | nil => rfl
  | cons b items => simp [rowOf?, List.foldl_append]

variable [DecidableEq κ]

def enter (a : α) : List β → List β
  | [] => [E.start a]
  | row :: rows =>
    if E.rowKey row = E.itemKey a then E.change a row :: rows else row :: enter a rows

def table (items : List α) : List β := items.foldl (fun rows a => E.enter a rows) []

def row? (rows : List β) (k : κ) : Option β := rows.find? fun row => E.rowKey row = k

def itemsOf (items : List α) (k : κ) : List α := items.filter fun a => E.itemKey a = k

theorem enter_keys (a : α) (rows : List β) :
    (E.enter a rows).map E.rowKey =
      if E.itemKey a ∈ rows.map E.rowKey then rows.map E.rowKey
      else rows.map E.rowKey ++ [E.itemKey a] := by
  induction rows with
  | nil => simp [enter, E.rowKey_start]
  | cons row rows ih =>
      rw [enter]
      by_cases h : E.rowKey row = E.itemKey a
      · simp [h, E.rowKey_change]
      · have h' : E.itemKey a ≠ E.rowKey row := fun e => h e.symm
        simp only [if_neg h, List.map_cons, ih, List.mem_cons, h', false_or]
        split <;> rfl

theorem row?_enter (a : α) (rows : List β) (k : κ) :
    E.row? (E.enter a rows) k =
      if E.itemKey a = k then some ((E.row? rows k).elim (E.start a) (E.change a))
      else E.row? rows k := by
  induction rows with
  | nil =>
      by_cases h : E.itemKey a = k <;> simp [enter, row?, E.rowKey_start, h]
  | cons row rows ih =>
      simp only [row?] at ih ⊢
      rw [enter]
      by_cases here : E.rowKey row = E.itemKey a
      · rw [if_pos here]
        by_cases h : E.itemKey a = k
        · simp [here, h, E.rowKey_change]
        · simp [here, h, E.rowKey_change]
      · rw [if_neg here]
        by_cases hk : E.rowKey row = k
        · have h : E.itemKey a ≠ k := fun e => here (hk.trans e.symm)
          simp [hk, h]
        · simp [hk, ih]

@[simp]
theorem table_concat (items : List α) (a : α) :
    E.table (items ++ [a]) = E.enter a (E.table items) := by
  simp only [table, List.foldl_append, List.foldl_cons, List.foldl_nil]

theorem table_keys (items : List α) :
    (E.table items).map E.rowKey = (items.map E.itemKey).eraseDups := by
  induction items using List.reverseRecOn with
  | nil => rfl
  | append_singleton items a ih =>
      rw [table_concat, enter_keys, ih, List.map_append, List.map_singleton, eraseDups_concat]
      simp only [List.mem_eraseDups]

theorem enter_filter (p : κ → Bool) (a : α) (rows : List β) :
    (E.enter a rows).filter (p <| E.rowKey ·) =
      if p (E.itemKey a) then E.enter a (rows.filter (p <| E.rowKey ·))
      else rows.filter (p <| E.rowKey ·) := by
  induction rows with
  | nil => cases h : p (E.itemKey a) <;> simp [enter, E.rowKey_start, h]
  | cons row rows ih =>
      rw [enter]
      by_cases same : E.rowKey row = E.itemKey a
      · cases h : p (E.itemKey a) <;> simp [enter, same, E.rowKey_change, h]
      · cases hrow : p (E.rowKey row) <;> cases h : p (E.itemKey a) <;>
          simp [enter, same, hrow, ih, h]

/-- The rows of some keys are the table of the items of those keys. -/
theorem table_filter (p : κ → Bool) (items : List α) :
    (E.table items).filter (p <| E.rowKey ·) = E.table (items.filter (p <| E.itemKey ·)) := by
  induction items using List.reverseRecOn with
  | nil => rfl
  | append_singleton items a ih =>
      rw [table_concat, enter_filter, ih, List.filter_append]
      cases h : p (E.itemKey a) <;> simp [h]

/-- Items and rows changed alike, their keys kept, make the table with its rows changed. -/
theorem table_map {f : α → α} {g : β → β} (itemKey : ∀ a, E.itemKey (f a) = E.itemKey a)
    (rowKey : ∀ row, E.rowKey (g row) = E.rowKey row) (start : ∀ a, E.start (f a) = g (E.start a))
    (change : ∀ a row, E.change (f a) (g row) = g (E.change a row)) (items : List α) :
    E.table (items.map f) = (E.table items).map g := by
  have enter_map : ∀ a rows, E.enter (f a) (rows.map g) = (E.enter a rows).map g := by
    intro a rows
    induction rows with
    | nil => simp [enter, start]
    | cons row rows ih =>
        rw [List.map_cons, enter, enter, rowKey, itemKey, change, ih]
        split <;> rfl
  induction items using List.reverseRecOn with
  | nil => rfl
  | append_singleton items a ih =>
      rw [List.map_append, List.map_singleton, table_concat, table_concat, ih, enter_map]

theorem mem_table_keys (items : List α) (k : κ) :
    k ∈ (E.table items).map E.rowKey ↔ k ∈ items.map E.itemKey := by
  rw [table_keys, List.mem_eraseDups]

theorem table_keys_nodup (items : List α) : ((E.table items).map E.rowKey).Nodup := by
  rw [table_keys]
  exact eraseDups_nodup _

theorem row?_table (items : List α) (k : κ) :
    E.row? (E.table items) k = E.rowOf? (E.itemsOf items k) := by
  induction items using List.reverseRecOn with
  | nil => rfl
  | append_singleton items a ih =>
      rw [table_concat, row?_enter, ih]
      by_cases h : E.itemKey a = k
      · simp [itemsOf, h, rowOf?_concat]
      · simp [itemsOf, h]

/-- An item that changes nothing the second time need only be entered once. -/
theorem enter_enter {a : α} (hstart : E.change a (E.start a) = E.start a)
    (hchange : ∀ row, E.change a (E.change a row) = E.change a row) (rows : List β) :
    E.enter a (E.enter a rows) = E.enter a rows := by
  induction rows with
  | nil => simp [enter, E.rowKey_start, hstart]
  | cons row rows ih =>
      by_cases h : E.rowKey row = E.itemKey a
      · simp [enter, h, E.rowKey_change, hchange]
      · simp [enter, h, ih]

theorem foldl_enter_replicate {a : α} (hstart : E.change a (E.start a) = E.start a)
    (hchange : ∀ row, E.change a (E.change a row) = E.change a row) (n : Nat) (rows : List β) :
    (List.replicate n a).foldl (fun rows a => E.enter a rows) rows =
      if n = 0 then rows else E.enter a rows := by
  induction n generalizing rows with
  | zero => rfl
  | succ n ih =>
      rw [List.replicate_succ, List.foldl_cons, ih, if_neg (Nat.succ_ne_zero n)]
      split
      · rfl
      · exact E.enter_enter hstart hchange rows

/-- Where keys differ, a row is in the table exactly where it is the row of its key. -/
theorem mem_iff_row? {rows : List β} (h : (rows.map E.rowKey).Nodup) (row : β) :
    row ∈ rows ↔ E.row? rows (E.rowKey row) = some row := by
  induction rows with
  | nil => simp [row?]
  | cons first rows ih =>
      rw [List.map_cons, List.nodup_cons] at h
      have apart : ∀ r ∈ rows, E.rowKey first ≠ E.rowKey r := fun r hr e =>
        h.1 (e ▸ List.mem_map_of_mem hr)
      by_cases same : E.rowKey first = E.rowKey row
      · constructor
        · intro member
          rcases List.mem_cons.mp member with rfl | later
          · simp [row?]
          · exact absurd same (apart row later)
        · intro found
          simp only [row?, same, decide_true, List.find?_cons_of_pos, Option.some.injEq] at found
          exact found ▸ List.mem_cons_self
      · have other : row ≠ first := fun e => same (congrArg E.rowKey e.symm)
        rw [List.mem_cons, or_iff_right other, ih h.2]
        simp [row?, same]

theorem mem_table_iff (items : List α) (row : β) :
    row ∈ E.table items ↔ E.rowOf? (E.itemsOf items (E.rowKey row)) = some row := by
  rw [mem_iff_row? E (E.table_keys_nodup items), row?_table]

theorem eq_filterMap_row? {rows : List β} (h : (rows.map E.rowKey).Nodup) :
    rows = (rows.map E.rowKey).filterMap (E.row? rows) := by
  have each : ∀ row ∈ rows, (E.row? rows ∘ E.rowKey) row = some row := fun row member =>
    (E.mem_iff_row? h row).mp member
  rw [List.filterMap_map, List.filterMap_congr each, List.filterMap_some]

/-- The whole table: the keys in the order of their first items, each with its row. -/
theorem table_eq (items : List α) :
    E.table items =
      (items.map E.itemKey).eraseDups.filterMap fun k => E.rowOf? (E.itemsOf items k) := by
  conv_lhs => rw [E.eq_filterMap_row? (E.table_keys_nodup items), table_keys]
  simp only [row?_table]

end Entry

end ComponentAtlas
