import Mathlib.Data.List.DropRight
import Mathlib.Data.List.Induction
import Mathlib.Data.String.Basic
import ComponentAtlas.Proofs.Decimal.Undefined
import ComponentAtlas.Proofs.Table
import ComponentAtlas.Proofs.Watch

/-!
Runs of a watch. What was asked of it and when tells what waits and since when, and so which batches
it hands over: each arrival of a path is in the first batch after it, and waits until there is one.
-/

namespace ComponentAtlas.Watch

section Runs

inductive Call where
  | event (e : FileEvent)
  | flush

/-- A call, and what the clock shows at it. -/
structure Moment where
  call : Call
  now : Float

/-- The batch that is handed over at a moment, and the watch after it. -/
def respond (w : Watch) (m : Moment) : Option (List String) × Watch :=
  match m.call with
  | .event e => (none, w.handle m.now e)
  | .flush => w.flush m.now

structure Record where
  moment : Moment
  batch : Option (List String)

def step (s : List Record × Watch) (m : Moment) : List Record × Watch :=
  (s.1 ++ [⟨m, (s.2.respond m).1⟩], (s.2.respond m).2)

/-- The records of what was done one after the other, and the watch after it. -/
def run (w : Watch) (moments : List Moment) : List Record × Watch := moments.foldl step ([], w)

@[simp]
theorem run_concat (w : Watch) (moments : List Moment) (m : Moment) :
    w.run (moments ++ [m]) = step (w.run moments) m := by
  rw [run, List.foldl_append]
  rfl

theorem run_moments (w : Watch) (moments : List Moment) :
    (w.run moments).1.map (·.moment) = moments := by
  induction moments using List.reverseRecOn with
  | nil => rfl
  | append_singleton moments m ih =>
      rw [run_concat, step, List.map_append, ih]
      rfl

/-- A record is what the watch answered after the records before it. -/
theorem run_record {w : Watch} {moments : List Moment} {before after : List Record} {r : Record}
    (h : (w.run moments).1 = before ++ r :: after) :
    ∃ earlier, (w.run earlier).1 = before ∧ r.batch = ((w.run earlier).2.respond r.moment).1 := by
  induction moments using List.reverseRecOn generalizing after with
  | nil => exact absurd h.symm (List.append_ne_nil_of_right_ne_nil _ (List.cons_ne_nil _ _))
  | append_singleton moments m ih =>
      rw [run_concat, step] at h
      rcases after.eq_nil_or_concat with rfl | ⟨later, last, rfl⟩
      · obtain ⟨same, answer⟩ := List.append_inj' h rfl
        rw [List.cons.injEq] at answer
        refine ⟨moments, same, ?_⟩
        rw [← answer.1]
      · rw [List.concat_eq_append, ← List.cons_append, ← List.append_assoc] at h
        exact ih (List.append_inj' h rfl).1

end Runs

section Arrivals

/-- The paths that an event reports and that count, as they are shown. -/
def arrivals (w : Watch) (m : Moment) : List String :=
  match m.call with
  | .event e =>
    if e.isFolder then []
    else ((e.source.toList ++ e.destination.toList).filter fun path =>
      path ≠ "" ∧ w.isRelevant path).map fun path => (Path.parts path).text
  | .flush => []

/-- A path that counts is put with those that wait. -/
def accept (now : Float) (w : Watch) (shown : String) : Watch :=
  { w with
    pending := if w.pending.contains shown then w.pending else w.pending ++ [shown]
    lastEvent := now }

variable {w : Watch}

theorem isRelevant_of_root {v : Watch} (same : v.root = w.root) (path : String) :
    v.isRelevant path = w.isRelevant path := by
  rw [isRelevant, isRelevant, decidingNames, decidingNames, same]

theorem arrivals_of_root {v : Watch} (same : v.root = w.root) (m : Moment) :
    v.arrivals m = w.arrivals m := by
  rw [arrivals, arrivals]
  simp only [isRelevant_of_root same]

theorem note_eq (w : Watch) (now : Float) (path : String) :
    w.note now path =
      if path ≠ "" ∧ w.isRelevant path then w.accept now (Path.parts path).text else w := by
  unfold note
  by_cases counts : path ≠ "" ∧ w.isRelevant path = true
  · rw [if_pos counts, if_neg (by simpa using counts)]
    rfl
  · rw [if_neg counts, if_pos (by simpa [or_iff_not_imp_left] using counts)]

/-- An event does with the watch what its arrivals do, one after the other. -/
theorem handle_eq (w : Watch) (now : Float) (e : FileEvent) :
    w.handle now e = (w.arrivals ⟨.event e, now⟩).foldl (accept now) w := by
  have ends : ∀ (paths : List String) (v : Watch), v.root = w.root →
      paths.foldl (note · now) v =
        ((paths.filter fun path => path ≠ "" ∧ w.isRelevant path).map fun path =>
          (Path.parts path).text).foldl (accept now) v := by
    intro paths
    induction paths with
    | nil => exact fun _ _ => rfl
    | cons path paths ih =>
        intro v same
        rw [List.foldl_cons, note_eq, isRelevant_of_root same, List.filter_cons]
        by_cases counts : path ≠ "" ∧ w.isRelevant path = true
        · rw [if_pos counts, if_pos (decide_eq_true counts)]
          exact ih _ same
        · rw [if_neg counts, if_neg (by simpa using counts)]
          exact ih v same
  unfold handle arrivals
  dsimp only
  split
  · rfl
  · exact ends _ w rfl

theorem accepts_settings (now : Float) (paths : List String) (w : Watch) :
    (paths.foldl (accept now) w).root = w.root ∧
      (paths.foldl (accept now) w).debounce = w.debounce := by
  induction paths generalizing w with
  | nil => exact ⟨rfl, rfl⟩
  | cons path paths ih => exact ih _

theorem accepts_lastEvent (now : Float) (paths : List String) (w : Watch) :
    (paths.foldl (accept now) w).lastEvent = if paths = [] then w.lastEvent else now := by
  induction paths using List.reverseRecOn with
  | nil => rfl
  | append_singleton paths path =>
      rw [List.foldl_append, if_neg (List.append_ne_nil_of_right_ne_nil _ (List.cons_ne_nil _ _))]
      rfl

theorem accepts_pending {as : List String} (now : Float) (paths : List String)
    (h : w.pending = as.eraseDups) :
    (paths.foldl (accept now) w).pending = (as ++ paths).eraseDups := by
  induction paths using List.reverseRecOn with
  | nil => rw [List.append_nil, List.foldl_nil, h]
  | append_singleton paths path ih =>
      rw [List.foldl_append, List.foldl_cons, List.foldl_nil, accept, ih, ← List.append_assoc,
        eraseDups_concat]
      simp only [List.contains_iff_mem, List.mem_eraseDups]

end Arrivals

section Waiting

/-- What was done since the last batch. -/
def sinceBatch (log : List Record) : List Record := log.rtakeWhile fun r => r.batch.isNone

/-- What has come since the last batch, each path once. -/
def waiting (w : Watch) (log : List Record) : List String :=
  ((sinceBatch log).flatMap fun r => w.arrivals r.moment).eraseDups

/-- When a path that counts came last. -/
def lastArrival (w : Watch) (log : List Record) : Float :=
  match (log.filter fun r => !(w.arrivals r.moment).isEmpty).getLast? with
  | some r => r.moment.now
  | none => 0.0

/-- The watch is what the records since it was `start` tell. -/
structure Follows (start : Watch) (log : List Record) (w : Watch) : Prop where
  root : w.root = start.root
  debounce : w.debounce = start.debounce
  pending : w.pending = waiting start log
  lastEvent : w.lastEvent = lastArrival start log

variable {start w : Watch} {log : List Record} {m : Moment}

theorem sinceBatch_append (log : List Record) {later : List Record}
    (h : ∀ r ∈ later, r.batch = none) : sinceBatch (log ++ later) = sinceBatch log ++ later := by
  have none_there : ∀ r ∈ later.reverse, r.batch.isNone = true := by
    intro r hr
    rw [h r (List.mem_reverse.mp hr)]
    rfl
  rw [sinceBatch, List.rtakeWhile, List.reverse_append, List.takeWhile_append_of_pos none_there,
    List.reverse_append, List.reverse_reverse]
  rfl

theorem sinceBatch_with (log : List Record) (m : Moment) (batch : List String) :
    sinceBatch (log ++ [⟨m, some batch⟩]) = [] :=
  List.rtakeWhile_concat_neg _ _ _ Bool.false_ne_true

theorem waiting_concat (start : Watch) (log : List Record) (m : Moment) :
    waiting start (log ++ [⟨m, none⟩]) =
      (((sinceBatch log).flatMap fun r => start.arrivals r.moment) ++
        start.arrivals m).eraseDups := by
  rw [waiting, sinceBatch_append log (List.forall_mem_singleton.mpr rfl), List.flatMap_append,
    List.flatMap_singleton]

theorem lastArrival_concat (start : Watch) (log : List Record) (r : Record) :
    lastArrival start (log ++ [r]) =
      if start.arrivals r.moment = [] then lastArrival start log else r.moment.now := by
  unfold lastArrival
  rw [List.filter_append]
  cases arrived : start.arrivals r.moment with
  | nil => simp [arrived]
  | cons path paths => simp [arrived]

theorem Follows.event (h : Follows start log w) (e : FileEvent) (now : Float) :
    Follows start (log ++ [⟨⟨.event e, now⟩, none⟩]) (w.handle now e) := by
  rw [handle_eq, arrivals_of_root h.root]
  obtain ⟨root, debounce⟩ := accepts_settings now (start.arrivals ⟨.event e, now⟩) w
  constructor
  case root => rw [root, h.root]
  case debounce => rw [debounce, h.debounce]
  case pending => rw [accepts_pending now _ h.pending, waiting_concat]
  case lastEvent => rw [accepts_lastEvent, lastArrival_concat, h.lastEvent]

/-- A flush without a batch changes nothing, and brings nothing. -/
theorem Follows.idle (h : Follows start log w) (now : Float) :
    Follows start (log ++ [⟨⟨.flush, now⟩, none⟩]) w where
  root := h.root
  debounce := h.debounce
  pending := by
    rw [waiting_concat, arrivals, List.append_nil]
    exact h.pending
  lastEvent := by
    rw [lastArrival_concat, arrivals, if_pos rfl]
    exact h.lastEvent

theorem Follows.handedOver (h : Follows start log w) (now : Float) (batch : List String) :
    Follows start (log ++ [⟨⟨.flush, now⟩, some batch⟩]) { w with pending := [] } where
  root := h.root
  debounce := h.debounce
  pending := by
    rw [waiting, sinceBatch_with]
    rfl
  lastEvent := by
    rw [lastArrival_concat, arrivals, if_pos rfl]
    exact h.lastEvent

theorem Follows.respond (h : Follows start log w) (m : Moment) :
    Follows start (log ++ [⟨m, (w.respond m).1⟩]) (w.respond m).2 := by
  obtain ⟨call, now⟩ := m
  cases call with
  | event e => exact h.event e now
  | flush =>
      unfold Watch.respond flush
      dsimp only
      split
      · exact h.handedOver now _
      · exact h.idle now

/-- After a run the watch is what the records tell. -/
theorem follows_run (root : String) (debounce : Float) (moments : List Moment) :
    Follows (Watch.start root debounce) ((Watch.start root debounce).run moments).1
      ((Watch.start root debounce).run moments).2 := by
  induction moments using List.reverseRecOn with
  | nil => exact ⟨rfl, rfl, rfl, rfl⟩
  | append_singleton moments m ih =>
      rw [run_concat]
      exact ih.respond m

end Waiting

section Batches

variable {w : Watch} {now : Float} {batch : List String}

theorem flush_isSome_iff (w : Watch) (now : Float) :
    (w.flush now).1.isSome = true ↔ w.pending ≠ [] ∧ ¬ now - w.lastEvent < w.debounce := by
  have due : w.isDue now = true ↔ w.pending ≠ [] ∧ ¬ now - w.lastEvent < w.debounce := by
    simp [isDue]
  rw [← due, flush]
  cases w.isDue now with
  | true => exact iff_of_true rfl rfl
  | false => exact iff_of_false Bool.false_ne_true Bool.false_ne_true

theorem flush_of_some (h : (w.flush now).1 = some batch) :
    w.sortedPending = batch ∧ (w.flush now).2 = { w with pending := [] } := by
  unfold flush at *
  split at h
  · rename_i due
    rw [if_pos due]
    exact ⟨Option.some.inj h, rfl⟩
  · cases h

theorem flush_of_none (h : (w.flush now).1 = none) : (w.flush now).2 = w := by
  unfold flush at *
  split at h
  · cases h
  · rename_i wait
    rw [if_neg wait]

theorem mem_sortedPending (w : Watch) (p : String) : p ∈ w.sortedPending ↔ p ∈ w.pending :=
  List.mem_mergeSort

theorem sortedPending_pairwise (once : w.pending.Nodup) : w.sortedPending.Pairwise (· < ·) := by
  have sorted : w.sortedPending.Pairwise fun a b => decide (a ≤ b) = true :=
    List.pairwise_mergeSort (fun a b c ab bc => by
        rw [decide_eq_true_eq] at *
        exact le_trans ab bc)
      (fun a b => by simpa using le_total a b) w.pending
  have apart : w.sortedPending.Nodup := (List.mergeSort_perm w.pending _).nodup_iff.mpr once
  refine (sorted.and apart).imp fun ⟨le, ne⟩ => ?_
  exact lt_of_le_of_ne (of_decide_eq_true le) ne

end Batches

section Delivery

/-- The records up to the last one tell what the watch holds and what a flush does with it. -/
structure Delivers (start : Watch) (log : List Record) (w : Watch) : Prop where
  waits_once : w.pending.Nodup
  waits : ∀ p, p ∈ w.pending ↔ ∃ r ∈ sinceBatch log, p ∈ start.arrivals r.moment
  lastEvent : w.lastEvent = lastArrival start log
  hands_over : ∀ now, (w.flush now).1.isSome = true ↔
    w.pending ≠ [] ∧ ¬ now - lastArrival start log < start.debounce
  all_at_once : ∀ now batch, (w.flush now).1 = some batch →
    batch.Pairwise (· < ·) ∧ (∀ p, p ∈ batch ↔ p ∈ w.pending) ∧
      (w.flush now).2 = { w with pending := [] }
  or_nothing : ∀ now, (w.flush now).1 = none → (w.flush now).2 = w

variable {start w : Watch} {log : List Record}

theorem mem_waiting (start : Watch) (log : List Record) (p : String) :
    p ∈ waiting start log ↔ ∃ r ∈ sinceBatch log, p ∈ start.arrivals r.moment := by
  rw [waiting, List.mem_eraseDups, List.mem_flatMap]

theorem Follows.delivers (h : Follows start log w) : Delivers start log w where
  waits_once := h.pending ▸ eraseDups_nodup _
  waits p := h.pending ▸ mem_waiting start log p
  lastEvent := h.lastEvent
  hands_over now := by rw [flush_isSome_iff, h.lastEvent, h.debounce]
  all_at_once := by
    intro now batch handed
    obtain ⟨rfl, emptied⟩ := flush_of_some handed
    exact ⟨sortedPending_pairwise (h.pending ▸ eraseDups_nodup _), mem_sortedPending w, emptied⟩
  or_nothing _ := flush_of_none

theorem mem_sinceBatch {before after : List Record} {r : Record} (h : r.batch = none)
    (later : ∀ x ∈ after, x.batch = none) : r ∈ sinceBatch (before ++ r :: after) := by
  rw [sinceBatch_append before (List.forall_mem_cons.mpr ⟨h, later⟩)]
  exact List.mem_append_right _ List.mem_cons_self

/-- A moment at which a path arrives hands no batch over. -/
theorem no_batch_of_arrival {p : String} {m : Moment} (arrived : p ∈ start.arrivals m) :
    (w.respond m).1 = none := by
  obtain ⟨call, now⟩ := m
  cases call with
  | event e => rfl
  | flush => exact absurd arrived List.not_mem_nil

/-- An event without arrivals leaves the watch as it is. -/
theorem respond_of_no_arrivals {e : FileEvent} {now : Float}
    (none_came : w.arrivals ⟨.event e, now⟩ = []) : w.respond ⟨.event e, now⟩ = (none, w) := by
  have same : w.handle now e = w := by
    rw [handle_eq, none_came]
    rfl
  exact congrArg (Prod.mk none) same

/-- A flush, or an event with a path that counts. -/
def Moment.counts (w : Watch) (m : Moment) : Bool :=
  match m.call with
  | .event _ => !(w.arrivals m).isEmpty
  | .flush => true

end Delivery

section Reached

variable (root : String) (debounce : Float) (moments : List Moment)

/-- Leaving out what does not count changes no batch and nothing that waits. -/
theorem run_counting :
    let w := start root debounce
    (w.run (moments.filter (Moment.counts w))).2 = (w.run moments).2 ∧
      (w.run (moments.filter (Moment.counts w))).1.filterMap (·.batch) =
        (w.run moments).1.filterMap (·.batch) := by
  intro w
  induction moments using List.reverseRecOn with
  | nil => exact ⟨rfl, rfl⟩
  | append_singleton moments m ih =>
      rw [List.filter_append, run_concat, step]
      by_cases counts : m.counts w = true
      · rw [List.filter_cons_of_pos counts, List.filter_nil, run_concat, step, ih.1,
          List.filterMap_append, List.filterMap_append, ih.2]
        exact ⟨rfl, rfl⟩
      · obtain ⟨call, now⟩ := m
        cases call with
        | flush => exact absurd rfl counts
        | event e =>
            have none_came : (w.run moments).2.arrivals ⟨.event e, now⟩ = [] := by
              rw [arrivals_of_root (follows_run root debounce moments).root]
              simpa [Moment.counts] using counts
            rw [List.filter_cons_of_neg counts, List.filter_nil, List.append_nil,
              respond_of_no_arrivals none_came, List.filterMap_append]
            exact ⟨ih.1, by rw [ih.2]; exact (List.append_nil _).symm⟩

variable {moments}

/-- A batch has what had come since the batch before it. -/
theorem batch_holds {before after : List Record} {r : Record} {batch : List String}
    (place : ((start root debounce).run moments).1 = before ++ r :: after)
    (handed : r.batch = some batch) :
    r.moment.call = .flush ∧ batch.Pairwise (· < ·) ∧
      ∀ p, p ∈ batch ↔
        ∃ x ∈ sinceBatch before, p ∈ (start root debounce).arrivals x.moment := by
  obtain ⟨earlier, told, answer⟩ := run_record place
  have told_before := (follows_run root debounce earlier).delivers
  rw [told] at told_before
  rw [handed] at answer
  obtain ⟨⟨call, now⟩, _⟩ := r
  cases call with
  | event e => cases answer
  | flush =>
      obtain ⟨sorted, holds, _⟩ := told_before.all_at_once now batch answer.symm
      exact ⟨rfl, sorted, fun p => (holds p).trans (told_before.waits p)⟩

/-- A path that came is in the first batch after it, or waits where there has been none. -/
theorem arrival_handed {before after : List Record} {r : Record} {p : String}
    (place : ((start root debounce).run moments).1 = before ++ r :: after)
    (arrived : p ∈ (start root debounce).arrivals r.moment) :
    match after.findSome? (·.batch) with
    | some batch => p ∈ batch
    | none => p ∈ ((start root debounce).run moments).2.pending := by
  have no_batch : r.batch = none := by
    obtain ⟨earlier, _, answer⟩ := run_record place
    rw [answer, no_batch_of_arrival arrived]
  cases first : after.findSome? (·.batch) with
  | some batch =>
      obtain ⟨between, x, rest, split, handed, none_between⟩ := List.findSome?_eq_some_iff.mp first
      rw [split, ← List.cons_append, ← List.append_assoc] at place
      have holds := (batch_holds root debounce place handed).2.2 p
      exact holds.mpr ⟨r, mem_sinceBatch no_batch none_between, arrived⟩
  | none =>
      have told := (follows_run root debounce moments).delivers.waits p
      rw [place] at told
      exact told.mpr ⟨r, mem_sinceBatch no_batch (List.findSome?_eq_none_iff.mp first), arrived⟩

end Reached

/-- Whatever is asked of a watch and when, what waits are the paths that came since the last batch,
and a flush hands all of it over in order, once the last of them is long enough ago, or does
nothing. So each path that comes is in the first batch after it, or waits until there is one, and
what does not count neither is in a batch nor delays one. -/
theorem run_delivers (root : String) (debounce : Float) (moments : List Moment) :
    let w₀ := start root debounce
    let log := (w₀.run moments).1
    let w := (w₀.run moments).2
    log.map (·.moment) = moments ∧ Delivers w₀ log w ∧
      (∀ now, debounce ≤ now - w.lastEvent ↔ ¬ now - w.lastEvent < debounce ∧
        debounce.isNaN = false ∧ (now - w.lastEvent).isNaN = false) ∧
      (∀ before r after batch, log = before ++ r :: after → r.batch = some batch →
        r.moment.call = .flush ∧ batch.Pairwise (· < ·) ∧
          ∀ p, p ∈ batch ↔ ∃ x ∈ sinceBatch before, p ∈ w₀.arrivals x.moment) ∧
      (∀ before r after p, log = before ++ r :: after → p ∈ w₀.arrivals r.moment →
        match after.findSome? (·.batch) with
        | some batch => p ∈ batch
        | none => p ∈ w.pending) ∧
      (w₀.run (moments.filter (Moment.counts w₀))).2 = w ∧
      (w₀.run (moments.filter (Moment.counts w₀))).1.filterMap (·.batch) =
        log.filterMap (·.batch) := by
  intro w₀ log w
  refine ⟨run_moments w₀ moments, (follows_run root debounce moments).delivers, ?_, ?_, ?_,
    run_counting root debounce moments⟩
  · exact fun now => Decimal.le_iff_not_lt debounce (now - w.lastEvent)
  · exact fun _ _ _ _ place handed => batch_holds root debounce place handed
  · exact fun _ _ _ _ place arrived => arrival_handed root debounce place arrived

end ComponentAtlas.Watch
