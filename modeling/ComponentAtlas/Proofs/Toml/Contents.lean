import ComponentAtlas.Toml.Value
import Mathlib.Data.Option.Basic

/-!
What a value of a settings file holds, whatever the order of the keys in its tables. Two tables are
the same dictionary where every way into them leads to the same.
-/

namespace ComponentAtlas.Toml

/-- A step into a value: to a key of a table or to a place in a list. -/
inductive Step where
  | key (name : String)
  | place (n : Nat)

namespace Value

def below? : Value → Step → Option Value
  | .table entries, .key name => Table.get? entries name
  | .list items, .place n => items[n]?
  | _, _ => none

/-- The value at the end of a way. -/
def at? (v : Value) : List Step → Option Value
  | [] => some v
  | s :: way => (v.below? s).bind fun w => w.at? way

/-- A value without what is below it. -/
def bare : Value → Value
  | .list _ => .list []
  | .table _ => .table []
  | v => v

/-- What a value holds: at the end of every way what stands there, each level by itself. -/
def contents (v : Value) (way : List Step) : Option Value := (v.at? way).map bare

@[simp]
theorem contents_nil (v : Value) : v.contents [] = some v.bare := rfl

@[simp]
theorem contents_cons (v : Value) (s : Step) (way : List Step) :
    v.contents (s :: way) = (v.below? s).bind fun w => w.contents way := by
  rw [contents, at?, Option.map_bind]
  rfl

/-- Values hold the same where they are alike by themselves and hold the same one step below. -/
theorem contents_eq_iff {v w : Value} :
    v.contents = w.contents ↔
      v.bare = w.bare ∧ ∀ s, (v.below? s).map contents = (w.below? s).map contents := by
  constructor
  · intro same
    refine ⟨Option.some_injective _ (congrFun same []), fun s => ?_⟩
    have ways : ∀ way, (v.below? s).bind (·.contents way) = (w.below? s).bind (·.contents way) :=
      fun way => by rw [← contents_cons, same, contents_cons]
    -- The way that ends here tells whether anything is below at all.
    cases here : v.below? s <;> cases there : w.below? s <;> simp only [here, there] at ways
    · rfl
    · cases ways []
    · cases ways []
    · exact congrArg some (funext ways)
  · rintro ⟨alike, below⟩
    funext way
    cases way with
    | nil => exact congrArg some alike
    | cons s way =>
        have under := congrArg (·.bind fun f => f way) (below s)
        simpa only [contents_cons, Option.bind_map, Function.comp_def] using under

/-- Only one value has the contents of `v`. -/
def Told (v : Value) : Prop := ∀ w : Value, w.contents = v.contents → w = v

theorem told_of_scalar {v : Value} (noList : ∀ items, v ≠ .list items)
    (noTable : ∀ entries, v ≠ .table entries) : v.Told := by
  intro w same
  have alike := (contents_eq_iff.mp same).1
  cases v with
  | list items => exact absurd rfl (noList items)
  | table entries => exact absurd rfl (noTable entries)
  | _ => cases w <;> first | exact alike | cases alike

theorem told_list {items : List Value} (each : ∀ v ∈ items, v.Told) : (Value.list items).Told := by
  intro w same
  obtain ⟨alike, below⟩ := contents_eq_iff.mp same
  cases w with
  | list others =>
      congr
      refine List.ext_getElem? fun n => ?_
      have here : (others[n]?).map contents = (items[n]?).map contents := below (.place n)
      cases own : items[n]? with
      | none => rwa [own, Option.map_none, Option.map_eq_none_iff] at here
      | some v =>
          rw [own, Option.map_some] at here
          obtain ⟨u, found, held⟩ := Option.map_eq_some_iff.mp here
          rw [found, each v (List.mem_of_getElem? own) u held]
  | _ => cases alike

end Value

namespace Table

theorem get?_cons (key other : String) (v : Value) (rest : Table) :
    Table.get? ((key, v) :: rest) other = if other = key then some v else rest.get? other := by
  rw [Table.get?, List.lookup_cons]
  by_cases same : other = key
  · rw [if_pos same, beq_iff_eq.mpr same]
  · rw [if_neg same, beq_eq_false_iff_ne.mpr same]
    rfl

theorem get?_put (table : Table) (key other : String) (v : Value) :
    (Table.put table key v).get? other = if other = key then some v else table.get? other := by
  induction table with
  | nil => exact get?_cons key other v []
  | cons entry rest ih =>
      obtain ⟨k, old⟩ := entry
      rw [Table.put, get?_cons]
      by_cases here : k = key
      · subst here
        rw [if_pos (beq_iff_eq.mpr rfl), get?_cons]
        split <;> rfl
      · rw [if_neg (by simpa using here), get?_cons, ih]
        by_cases same : other = k
        · subst same
          simp only [if_true, if_neg here]
        · simp only [if_neg same]

/-- The dictionary that a table is. -/
def contents (t : Table) : List Step → Option Value := Value.contents (.table t)

theorem contents_eq_iff {a b : Table} :
    a.contents = b.contents ↔
      ∀ key, (a.get? key).map Value.contents = (b.get? key).map Value.contents := by
  refine Value.contents_eq_iff.trans ((and_iff_right rfl).trans ?_)
  constructor
  · exact fun below key => below (.key key)
  · intro keys s
    cases s with
    | key name => exact keys name
    | place n => rfl

/-- Keys that come in another order make the same dictionary. -/
theorem contents_eq_of_get? {a b : Table} (same : ∀ key, a.get? key = b.get? key) :
    a.contents = b.contents :=
  contents_eq_iff.mpr fun key => congrArg (·.map Value.contents) (same key)

end Table

end ComponentAtlas.Toml
