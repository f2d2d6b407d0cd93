import Mathlib.Data.List.Nodup
import ComponentAtlas.Proofs.Table
import ComponentAtlas.Status.Overlay

/-!
An overlay as the entry that each id has. Every operation is told by what it does to the entry of
any one id, and none of them gives an id a second entry.
-/

namespace ComponentAtlas.Overlay

/-- The ids that have an entry. -/
def ids (o : Overlay) : List String := o.entries.map Prod.fst

theorem lookup_filter_id (p : String → Bool) (entries : List (String × StatusEntry)) (id : String) :
    (entries.filter fun e => p e.1).lookup id = if p id then entries.lookup id else none := by
  induction entries with
  | nil => simp
  | cons e entries ih =>
      obtain ⟨other, entry⟩ := e
      by_cases here : id = other
      · subst here
        cases h : p id <;> simp [h, ih]
      · have apart : (id == other) = false := beq_eq_false_iff_ne.mpr here
        cases h : p other <;> simp [h, List.lookup_cons, apart, ih]

/-- Where ids do not repeat, what a filter keeps may depend on the entry as well. -/
theorem lookup_filter_of_nodup (p : String → StatusEntry → Bool)
    {entries : List (String × StatusEntry)} (h : (entries.map Prod.fst).Nodup) (id : String) :
    (entries.filter fun (id, e) => p id e).lookup id = (entries.lookup id).filter (p id) := by
  induction entries with
  | nil => rfl
  | cons e entries ih =>
      obtain ⟨other, entry⟩ := e
      obtain ⟨fresh, nodup⟩ := List.nodup_cons.mp h
      by_cases here : id = other
      · subst here
        have absent : entries.lookup id = none := lookup_of_not_mem fresh
        cases kept : p id entry with
        | true => simp [kept, Option.filter_some]
        | false =>
            have dropped := ih nodup
            rw [absent] at dropped
            rw [List.filter_cons_of_neg (by simp [kept]), dropped]
            simp [kept, Option.filter_some]
      · have apart : (id == other) = false := beq_eq_false_iff_ne.mpr here
        cases kept : p other entry <;> simp [kept, List.lookup_cons, apart, ih nodup]

theorem mem_ids_iff {o : Overlay} {id : String} : id ∈ o.ids ↔ o.has id = true :=
  lookup_isSome_iff_mem.symm

theorem entries_eq_nil {o : Overlay} (h : ∀ id, id ∉ o.ids) : o.entries = [] := by
  cases shape : o.entries with
  | nil => rfl
  | cons e rest =>
      have first : e.1 ∈ o.ids := by
        unfold ids
        rw [shape]
        exact List.mem_cons_self
      exact absurd first (h e.1)

section Keeping

theorem ids_keepOnly_sublist (o : Overlay) (p : String → StatusEntry → Bool) :
    (o.keepOnly p).ids.Sublist o.ids :=
  List.filter_sublist.map Prod.fst

theorem entry?_keepOnly (o : Overlay) (p : String → Bool) (id : String) :
    entry? (o.keepOnly fun id _ => p id) id = if p id then o.entry? id else none :=
  lookup_filter_id p o.entries id

theorem entry?_keepOnly_of_nodup {o : Overlay} (h : o.ids.Nodup)
    (p : String → StatusEntry → Bool) (id : String) :
    entry? (o.keepOnly p) id = (o.entry? id).filter (p id) :=
  lookup_filter_of_nodup p h id

theorem entry?_reset {o : Overlay} (h : o.ids.Nodup) (keepCompleted : Bool) (id : String) :
    entry? (o.reset keepCompleted) id =
      (o.entry? id).filter fun e => keepCompleted && e.status = .completed :=
  entry?_keepOnly_of_nodup h _ id

@[simp]
theorem entry?_clear (o : Overlay) (id : String) : entry? o.clear id = none := rfl

@[simp]
theorem entry?_prune (o : Overlay) (live : List String) (id : String) :
    entry? (o.prune live) id = if id ∈ live then o.entry? id else none := by
  unfold prune
  rw [entry?_keepOnly o live.contains]
  simp only [List.contains_iff_mem]

theorem mem_ids_prune {o : Overlay} {live : List String} {id : String}
    (h : id ∈ (o.prune live).ids) : id ∈ live := by
  by_contra dead
  simp [mem_ids_iff, has, dead] at h

@[simp]
theorem entry?_bind (o : Overlay) (g : Graph) (id : String) :
    entry? (o.bind g) id = if ∃ n ∈ g.nodes, n.id = id then o.entry? id else none := by
  have pruned : entry? (o.bind g) id = entry? (o.prune (g.nodes.map (·.id))) id := rfl
  rw [pruned, entry?_prune]
  simp only [List.mem_map]

end Keeping

section Setting

@[simp]
theorem entry?_erase (o : Overlay) (id other : String) :
    entry? (o.erase id) other = if other = id then none else o.entry? other := by
  unfold erase
  rw [entry?_keepOnly o (· != id)]
  by_cases same : other = id <;> simp [same]

@[simp]
theorem entry?_put (o : Overlay) (id other : String) (e : StatusEntry) :
    entry? (o.put id e) other = if other = id then some e else o.entry? other := by
  have appended : entry? (o.put id e) other =
      Option.or ( entry? (o.erase id) other) ([(id, e)].lookup other) := List.lookup_append
  rw [appended, entry?_erase]
  by_cases same : other = id
  · subst same
    simp
  · have apart : (other == id) = false := beq_eq_false_iff_ne.mpr same
    simp [same, List.lookup_cons, apart]

@[simp]
theorem ids_put (o : Overlay) (id : String) (e : StatusEntry) :
    (o.put id e).ids = (o.erase id).ids ++ [id] := List.map_append

theorem not_mem_ids_erase (o : Overlay) (id : String) : id ∉ (o.erase id).ids := by
  simp [mem_ids_iff, has]

/-- The entry that a status and a message make: none where a node is idle without a message. -/
def entryOf (status : EditStatus) (message : Option String) (now : Float) : Option StatusEntry :=
  if status = .idle ∧ message = none then none else some ⟨status, message, now⟩

/-- What setting a status does: nothing to an unknown id, and else one entry is replaced. -/
theorem set_cases (o : Overlay) (id : String) (status : EditStatus) (message : Option String)
    (now : Float) :
    (o.knows id = false ∧ o.set id status message now = .error ⟨id⟩) ∨
    (o.knows id = true ∧ ∃ o', o.set id status message now = .ok o' ∧ o'.known = o.known ∧
      (∀ other, o'.entry? other =
        if other = id then entryOf status message now else o.entry? other) ∧
      (∀ other ∈ o'.ids, other = id ∨ other ∈ o.ids) ∧ (o.ids.Nodup → o'.ids.Nodup)) := by
  have erased := ids_keepOnly_sublist o fun other _ => other != id
  cases known : o.knows id with
  | false => exact .inl ⟨rfl, by simp [set, known]⟩
  | true =>
      right
      refine ⟨rfl, ?_⟩
      by_cases idle : status = .idle ∧ message = none
      · refine ⟨o.erase id, by simp [set, known, idle.1, idle.2], rfl, ?_, ?_, ?_⟩
        · intro other
          simp [entryOf, idle]
        · intro other h
          exact .inr (erased.subset h)
        · intro nodup
          exact nodup.sublist erased
      · have busy : (decide (status = .idle) && message.isNone) = false := by
          rw [Bool.eq_false_iff]
          simpa using idle
        refine ⟨o.put id ⟨status, message, now⟩, by simp [set, known, busy], rfl, ?_, ?_, ?_⟩
        · intro other
          simp [entryOf, idle]
        · intro other h
          rw [ids_put, List.mem_append, List.mem_singleton] at h
          exact h.symm.imp_right fun kept => erased.subset kept
        · intro nodup
          rw [ids_put, ← List.concat_eq_append, List.nodup_concat]
          exact ⟨not_mem_ids_erase o id, nodup.sublist erased⟩

/-- A status that was taken is answered from then on, and other ids keep theirs. To have no entry
answers as much as to be idle without a message. -/
theorem statusOf_set {o o' : Overlay} {id : String} {status : EditStatus} {message : Option String}
    {now : Float} (h : o.set id status message now = .ok o') (other : String) :
    o'.statusOf other = (if other = id then status else o.statusOf other) ∧
      o'.messageOf other = if other = id then message else o.messageOf other := by
  rcases set_cases o id status message now with ⟨_, refused⟩ | ⟨_, _, taken, _, entries, _⟩
  · rw [refused] at h
    cases h
  · obtain rfl := Except.ok.inj (taken.symm.trans h)
    simp only [statusOf, messageOf, entries other]
    by_cases same : other = id
    · simp only [if_pos same]
      by_cases idle : status = .idle ∧ message = none
      · rw [entryOf, if_pos idle]
        exact ⟨idle.1.symm, idle.2.symm⟩
      · rw [entryOf, if_neg idle]
        exact ⟨rfl, rfl⟩
    · simp only [if_neg same, and_self]

end Setting

section Showing

/-- The node with the status, the message and the time of its id, idle and without them where
there is no entry. -/
def marked (o : Overlay) (n : Node) : Node :=
  match o.entry? n.id with
  | none => { n with status := .idle, message := none, modified := none }
  | some e => { n with status := e.status, message := e.message, modified := some e.updatedAt }

/-- A node as it comes out of its file. -/
structure Bare (n : Node) : Prop where
  status : n.status = .idle
  message : n.message = none
  modified : n.modified = none

theorem shown_eq_marked (o : Overlay) {n : Node} (h : Bare n) : o.shown n = o.marked n := by
  unfold shown marked
  cases o.entry? n.id with
  | none =>
      obtain ⟨status, message, modified⟩ := h
      cases n
      cases status
      cases message
      cases modified
      rfl
  | some e => rfl

/-- A view shows of a bare node what the overlay answers for its id. -/
theorem shown_answers (o : Overlay) {n : Node} (h : Bare n) :
    (o.shown n).status = o.statusOf n.id ∧ (o.shown n).message = o.messageOf n.id := by
  rw [shown_eq_marked o h, marked, statusOf, messageOf]
  cases o.entry? n.id <;> exact ⟨rfl, rfl⟩

end Showing

end ComponentAtlas.Overlay
