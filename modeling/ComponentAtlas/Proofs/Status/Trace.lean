import Mathlib.Data.List.Induction
import ComponentAtlas.Proofs.Status.Overlay

/-!
Runs of an overlay. What is done with an overlay is its trace, and the trace alone tells the entry
of an id: it is the last status that the id got, unless that is to be idle without a message or
something that came later took it away.
-/

namespace ComponentAtlas.Overlay

/-- What can be done with an overlay. A status is set at the time `now`. -/
inductive Act where
  | bind (g : Graph)
  | set (id : String) (status : EditStatus) (message : Option String) (now : Float)
  | reset (keepCompleted : Bool)
  | clear
  | prune (live : List String)
  | apply (g : Graph)

inductive Answer where
  | done
  | refused (e : UnknownNode)
  | dropped (count : Nat)
  | view (g : Graph)

def respond (o : Overlay) : Act → Overlay × Answer
  | .bind g => (o.bind g, .done)
  | .set id status message now =>
    match o.set id status message now with
    | .ok o' => (o', .done)
    | .error e => (o, .refused e)
  | .reset keepCompleted => (o.reset keepCompleted, .done)
  | .clear => (o.clear, .done)
  | .prune live => (o.prune live, .dropped (o.staleCount live))
  | .apply g => (o, .view (o.apply g))

def after (o : Overlay) (a : Act) : Overlay := (o.respond a).1

def answer (o : Overlay) (a : Act) : Answer := (o.respond a).2

def run (o : Overlay) (trace : List Act) : Overlay := trace.foldl after o

@[simp]
theorem run_concat (o : Overlay) (trace : List Act) (a : Act) :
    o.run (trace ++ [a]) = (o.run trace).after a := by
  simp only [run, List.foldl_append, List.foldl_cons, List.foldl_nil]

section Reading

def Act.boundIds : Act → Option (List String)
  | .bind g => some (g.nodes.map (·.id))
  | _ => none

/-- The ids that are known after a trace: those of the graph that was bound last, or else those
that the overlay was made with. -/
def knownAfter (start : Option (List String)) (trace : List Act) : Option (List String) :=
  (trace.filterMap Act.boundIds).getLast?.or start

/-- A status of `id` is taken after the trace. -/
def Admits (start : Option (List String)) (trace : List Act) (id : String) : Prop :=
  ∀ ids, knownAfter start trace = some ids → id ∈ ids

def setting (id : String) (e : StatusEntry) : Act := .set id e.status e.message e.updatedAt

def Act.Sets (id : String) : Act → Prop
  | .set other .. => other = id
  | _ => False

/-- The act takes an entry of `id` with this status away. -/
def Act.Drops (id : String) (status : EditStatus) : Act → Prop
  | .bind g => ¬ ∃ n ∈ g.nodes, n.id = id
  | .reset keepCompleted => ¬ (keepCompleted = true ∧ status = .completed)
  | .clear => True
  | .prune live => id ∉ live
  | .set .. | .apply _ => False

def Busy (e : StatusEntry) : Prop := ¬ (e.status = .idle ∧ e.message = none)

/-- The trace has a place where `id` gets the entry `e`. It is the last one where a status of `id`
is taken, and nothing after it drops the entry. -/
structure LeftAt (start : Option (List String)) (trace : List Act) (id : String) (e : StatusEntry)
    (earlier later : List Act) : Prop where
  split : trace = earlier ++ setting id e :: later
  admitted : Admits start earlier id
  busy : Busy e
  kept : ∀ a ∈ later, ¬ a.Drops id e.status
  last : ∀ between a rest, later = between ++ a :: rest → a.Sets id →
    ¬ Admits start (earlier ++ setting id e :: between) id

def Leaves (start : Option (List String)) (trace : List Act) (id : String) (e : StatusEntry) :
    Prop :=
  ∃ earlier later, LeftAt start trace id e earlier later

variable {start : Option (List String)} {trace : List Act} {id : String} {e : StatusEntry}

theorem knownAfter_concat (start : Option (List String)) (trace : List Act) (a : Act) :
    knownAfter start (trace ++ [a]) = a.boundIds.or (knownAfter start trace) := by
  unfold knownAfter
  rw [List.filterMap_append]
  cases h : a.boundIds with
  | none => simp [h]
  | some ids => simp [h]

theorem LeftAt.concat {earlier later : List Act} (h : LeftAt start trace id e earlier later)
    {a : Act} (keeps : ¬ a.Drops id e.status) (other : ¬ (a.Sets id ∧ Admits start trace id)) :
    LeftAt start (trace ++ [a]) id e earlier (later ++ [a]) where
  split := by
    rw [h.split]
    simp
  admitted := h.admitted
  busy := h.busy
  kept := by
    intro b hb
    rcases List.mem_append.mp hb with old | new
    · exact h.kept b old
    · rw [List.mem_singleton.mp new]
      exact keeps
  last := by
    intro between b rest place sets admits
    -- The place is the new act or lies before it.
    rcases List.eq_nil_or_concat rest with rfl | ⟨rest, c, rfl⟩
    · obtain ⟨rfl, same⟩ := List.append_inj' place rfl
      obtain rfl := List.singleton_inj.mp same
      rw [← h.split] at admits
      exact other ⟨sets, admits⟩
    · rw [List.concat_eq_append, ← List.cons_append, ← List.append_assoc] at place
      obtain ⟨old, _⟩ := List.append_inj' place rfl
      exact h.last between b rest old sets admits

theorem leaves_concat_iff (a : Act) :
    Leaves start (trace ++ [a]) id e ↔
      (a = setting id e ∧ Admits start trace id ∧ Busy e) ∨
      (Leaves start trace id e ∧ ¬ a.Drops id e.status ∧
        ¬ (a.Sets id ∧ Admits start trace id)) := by
  constructor
  · rintro ⟨earlier, later, h⟩
    rcases List.eq_nil_or_concat later with rfl | ⟨later, b, rfl⟩
    · left
      obtain ⟨rfl, same⟩ := List.append_inj' h.split rfl
      exact ⟨List.singleton_inj.mp same, h.admitted, h.busy⟩
    · right
      rw [List.concat_eq_append] at h
      have split := h.split
      rw [← List.cons_append, ← List.append_assoc] at split
      obtain ⟨rfl, same⟩ := List.append_inj' split rfl
      obtain rfl := List.singleton_inj.mp same
      refine ⟨⟨earlier, later, rfl, h.admitted, h.busy, ?_, ?_⟩, ?_, ?_⟩
      · intro b hb
        exact h.kept b (List.mem_append_left _ hb)
      · intro between b rest place
        exact h.last between b (rest ++ [a]) (by rw [place, List.append_assoc, List.cons_append])
      · exact h.kept a (List.mem_append_right _ List.mem_cons_self)
      · rintro ⟨sets, admits⟩
        exact h.last later a [] rfl sets admits
  · rintro (⟨rfl, admits, busy⟩ | ⟨⟨earlier, later, h⟩, keeps, other⟩)
    · refine ⟨trace, [], rfl, admits, busy, fun _ h => absurd h List.not_mem_nil, ?_⟩
      intro between b rest place
      exact absurd place.symm (List.append_ne_nil_of_right_ne_nil _ (List.cons_ne_nil _ _))
    · exact ⟨earlier, later ++ [a], h.concat keeps other⟩

end Reading

section Running

structure Orderly (o : Overlay) : Prop where
  distinct : o.ids.Nodup
  live : ∀ id ∈ o.ids, o.knows id = true

theorem knows_iff (o : Overlay) (id : String) :
    o.knows id = true ↔ ∀ ids, o.known = some ids → id ∈ ids := by
  unfold knows
  cases o.known <;> simp

theorem orderly_new (known : Option (List String)) : Orderly (new known) where
  distinct := List.nodup_nil
  live := fun _ h => absurd h List.not_mem_nil

theorem Orderly.keepOnly {o : Overlay} (h : Orderly o) (p : String → StatusEntry → Bool) :
    Orderly (o.keepOnly p) where
  distinct := h.distinct.sublist (ids_keepOnly_sublist o p)
  live := fun id hid => h.live id ((ids_keepOnly_sublist o p).subset hid)

theorem known_after (o : Overlay) (a : Act) : (o.after a).known = a.boundIds.or o.known := by
  unfold after
  cases a with
  | set id status message now =>
      rcases o.set_cases id status message now with ⟨_, refused⟩ | ⟨_, o', accepted, known, _⟩
      · simp only [respond, refused, Act.boundIds, Option.none_or]
      · simp only [respond, accepted, Act.boundIds, Option.none_or, known]
  | _ => rfl

theorem Orderly.after {o : Overlay} (h : Orderly o) (a : Act) : Orderly (o.after a) := by
  cases a with
  | bind g =>
      have pruned : Orderly (o.prune (g.nodes.map (·.id))) := h.keepOnly _
      constructor
      case distinct => exact pruned.distinct
      case live =>
        intro id hid
        rw [knows_iff]
        rintro ids ⟨⟩
        exact mem_ids_prune hid
  | set id status message now =>
      unfold Overlay.after
      rcases o.set_cases id status message now with
        ⟨_, refused⟩ | ⟨known, o', accepted, same, _, ids, nodup⟩
      · simp only [respond, refused]
        exact h
      · simp only [respond, accepted]
        refine ⟨nodup h.distinct, ?_⟩
        intro other hother
        have knew : o.knows other = true := by
          rcases ids other hother with rfl | old
          · exact known
          · exact h.live other old
        unfold knows at knew ⊢
        rwa [same]
  | reset keepCompleted =>
      have kept : Orderly (o.reset keepCompleted) := h.keepOnly _
      exact kept
  | clear => exact ⟨List.nodup_nil, fun _ hid => absurd hid List.not_mem_nil⟩
  | prune live =>
      have kept : Orderly (o.prune live) := h.keepOnly _
      exact kept
  | apply g => exact h

theorem entryOf_eq_some_iff (id : String) {status : EditStatus} {message : Option String}
    {now : Float} {e : StatusEntry} :
    entryOf status message now = some e ↔ .set id status message now = setting id e ∧ Busy e := by
  obtain ⟨status', message', now'⟩ := e
  unfold entryOf Busy setting
  by_cases idle : status = .idle ∧ message = none
  · rw [if_pos idle]
    constructor
    · rintro ⟨⟩
    · rintro ⟨same, busy⟩
      cases same
      exact absurd idle busy
  · rw [if_neg idle]
    constructor
    · rintro ⟨⟩
      exact ⟨rfl, idle⟩
    · rintro ⟨same, _⟩
      cases same
      rfl

/-- What one act does to the entry of one id. -/
theorem entry?_after_iff {o : Overlay} (h : Orderly o) (a : Act) (id : String) (e : StatusEntry) :
    entry? (o.after a) id = some e ↔
      (a = setting id e ∧ o.knows id = true ∧ Busy e) ∨
      (o.entry? id = some e ∧ ¬ a.Drops id e.status ∧ ¬ (a.Sets id ∧ o.knows id = true)) := by
  unfold after
  cases a with
  | bind g =>
      by_cases there : ∃ n ∈ g.nodes, n.id = id <;>
        simp [respond, there, setting, Act.Drops, Act.Sets]
  | set other status message now =>
      rcases o.set_cases other status message now with
        ⟨unknown, refused⟩ | ⟨known, o', accepted, _, entries, _⟩
      · simp only [respond, refused]
        by_cases same : other = id
        · subst same
          simp [unknown, Act.Drops]
        · simp [setting, same, Act.Drops, Act.Sets]
      · simp only [respond, accepted]
        rw [entries]
        by_cases same : id = other
        · subst same
          rw [if_pos rfl, entryOf_eq_some_iff id]
          simp [known, Act.Sets]
        · have apart : ¬ other = id := fun e => same e.symm
          simp [setting, same, apart, Act.Drops, Act.Sets]
  | reset keepCompleted =>
      rw [respond, entry?_reset h.distinct]
      simp [Option.filter_eq_some_iff, setting, Act.Drops, Act.Sets]
  | clear => simp [respond, setting, Act.Drops]
  | prune live => by_cases there : id ∈ live <;> simp [respond, there, setting, Act.Drops, Act.Sets]
  | apply g => simp [respond, setting, Act.Drops, Act.Sets]

/-- What holds of an overlay after a trace. -/
structure Follows (start : Option (List String)) (trace : List Act) (o : Overlay) : Prop where
  known : o.known = knownAfter start trace
  orderly : Orderly o
  entry : ∀ id e, o.entry? id = some e ↔ Leaves start trace id e

variable {start : Option (List String)} {trace : List Act} {o : Overlay}

theorem Follows.knows_iff (h : Follows start trace o) (id : String) :
    o.knows id = true ↔ Admits start trace id := by
  rw [Overlay.knows_iff, h.known]
  rfl

theorem follows_new (start : Option (List String)) : Follows start [] (new start) where
  known := rfl
  orderly := orderly_new start
  entry := by
    intro id e
    constructor
    · rintro ⟨⟩
    · rintro ⟨earlier, later, h⟩
      exact absurd h.split.symm (List.append_ne_nil_of_right_ne_nil _ (List.cons_ne_nil _ _))

theorem Follows.after (h : Follows start trace o) (a : Act) :
    Follows start (trace ++ [a]) (o.after a) where
  known := by rw [known_after, knownAfter_concat, h.known]
  orderly := h.orderly.after a
  entry := by
    intro id e
    rw [entry?_after_iff h.orderly, leaves_concat_iff, h.knows_iff, h.entry]

theorem follows_run (start : Option (List String)) (trace : List Act) :
    Follows start trace ((new start).run trace) := by
  induction trace using List.reverseRecOn with
  | nil => exact follows_new start
  | append_singleton trace a ih =>
      rw [run_concat]
      exact ih.after a

/-- The entries that pruning drops, counted. -/
theorem size_prune (o : Overlay) (live : List String) :
    (o.prune live).size + (o.ids.filter (!live.contains ·)).length = o.size := by
  have count := List.length_eq_length_filter_add (l := o.ids) live.contains
  unfold ids at count ⊢
  rw [List.filter_map, List.length_map, List.length_map] at count
  exact count.symm

theorem staleCount_eq (o : Overlay) (live : List String) :
    o.staleCount live = (o.ids.filter (!live.contains ·)).length := by
  have parts := o.size_prune live
  unfold staleCount
  omega

end Running

/-- The entries of an overlay are read off its trace: an id has the entry that the trace leaves for
it, and no other one. Once ids are known, no other id has an entry or gets one. The number that
pruning gives is that of the entries that it removes. -/
theorem run_leaves (start : Option (List String)) (trace : List Act) :
    let o := (new start).run trace
    (∀ id e, o.entry? id = some e ↔ Leaves start trace id e) ∧ o.ids.Nodup ∧
    o.known = knownAfter start trace ∧
    (∀ known, knownAfter start trace = some known → ∀ id ∈ o.ids, id ∈ known) ∧
    (∀ id status message now,
      (Admits start trace id → o.answer (.set id status message now) = .done) ∧
      (¬ Admits start trace id → o.respond (.set id status message now) = (o, .refused ⟨id⟩))) ∧
    ∀ live, ∃ count, o.answer (.prune live) = .dropped count ∧
      (o.after (.prune live)).size + count = o.size ∧
      count = (o.ids.filter (!live.contains ·)).length := by
  intro o
  have h : Follows start trace o := follows_run start trace
  refine ⟨h.entry, h.orderly.distinct, h.known, ?_, ?_, ?_⟩
  · intro known is_known id hid
    exact (h.knows_iff id).mp (h.orderly.live id hid) known is_known
  · intro id status message now
    rw [← h.knows_iff]
    rcases o.set_cases id status message now with ⟨unknown, refused⟩ | ⟨known, o', accepted, _⟩
    · simp [unknown, respond, refused]
    · simp [known, answer, respond, accepted]
  · intro live
    refine ⟨o.staleCount live, rfl, ?_, o.staleCount_eq live⟩
    rw [o.staleCount_eq]
    exact o.size_prune live

end ComponentAtlas.Overlay
