import ComponentAtlas.Session
import ComponentAtlas.Proofs.Graph.Build
import ComponentAtlas.Proofs.Status.Overlay

/-!
Runs of a session. Files and time change, graphs are built, statuses are set and reset, in any
order. A run is compared with one that knows no statuses at all: both have the same graph, and what
the session shows is that graph with the entries of the overlay, which are entries of its nodes.
-/

namespace ComponentAtlas.Session

inductive Event where
  | files (t : Tree)
  | clock (now : Float)
  | refresh (token : Workspace.Token)
  | cancel
  | setStatus (id : String) (status : EditStatus) (message : Option String)
  | reset (keepCompleted : Bool)

/-- A session with the files and the time that it works with. -/
structure World where
  session : Session
  tree : Tree
  now : Float

/-- The world after an event, and the failure of the event if it fails. A scan is over when the next
event comes, so a cancellation between events has nothing left to stop. -/
def World.respond [Path.WorkingDirectory] (w : World) : Event → World × Option Error
  | .files tree => ({ w with tree }, none)
  | .clock now => ({ w with now }, none)
  | .refresh token => ({ w with session := w.session.refresh w.tree token w.now }, none)
  | .cancel => (w, none)
  | .setStatus id status message =>
    match w.session.setStatus id status message w.now with
    | .ok session => ({ w with session }, none)
    | .error e => (w, some e)
  | .reset keepCompleted => ({ w with session := w.session.resetStatuses keepCompleted }, none)

def World.after [Path.WorkingDirectory] (w : World) (event : Event) : World := (w.respond event).1

def World.failure [Path.WorkingDirectory] (w : World) (event : Event) : Option Error :=
  (w.respond event).2

def World.run [Path.WorkingDirectory] (w : World) (events : List Event) : World :=
  events.foldl World.after w

/-- The files, the time and the graph of the last refresh. -/
structure Scene where
  tree : Tree
  now : Float
  last : Option Graph

variable (root : Names) (settings : Settings)

/-- Statuses have no part in what becomes of a scene. -/
def Scene.after [Path.WorkingDirectory] (c : Scene) : Event → Scene
  | .files tree => { c with tree }
  | .clock now => { c with now }
  | .refresh token =>
    let scan := Workspace.scan c.tree root (settings .excludePatterns) token
    { c with
      last := some (Graph.build (settings .fallbackResolution) scan.results (Tree.pathText root)
        c.now) }
  | .cancel | .setStatus .. | .reset _ => c

def Scene.run [Path.WorkingDirectory] (c : Scene) (events : List Event) : Scene := events.foldl
    (Scene.after root settings) c

section Invariant

theorem build_bare [Path.WorkingDirectory] {byName : Bool} {files : List Extraction} {path : String}
    {now : Float} {n : Node}
    (h : n ∈ (Graph.build byName files path now).nodes) : Overlay.Bare n := by
  rw [build_nodes] at h
  obtain ⟨p, hp, rfl⟩ := List.mem_map.mp h
  obtain ⟨e, _, offered⟩ := mem_offers_of_mem_placeAll hp
  obtain ⟨d, _, rfl⟩ := List.mem_map.mp offered
  exact ⟨rfl, rfl, rfl⟩

/-- What holds of the graph and the overlay of a session between events: the overlay knows the ids
of the graph, only they have entries, each of them one, and the graph itself has no statuses. -/
structure Coherent (built : Option Graph) (o : Overlay) : Prop where
  known : o.known = built.map fun g => g.nodes.map (·.id)
  live : ∀ id ∈ o.ids, ∃ g, built = some g ∧ ∃ n ∈ g.nodes, n.id = id
  distinct : o.ids.Nodup
  bare : ∀ g, built = some g → ∀ n ∈ g.nodes, Overlay.Bare n

variable {root settings} {built : Option Graph} {o : Overlay}

theorem Coherent.start : Coherent none (Overlay.new none) where
  known := rfl
  live := fun _ h => absurd h List.not_mem_nil
  distinct := List.nodup_nil
  bare := fun _ h => by cases h

theorem Coherent.bind (h : Coherent built o) {g : Graph} (bare : ∀ n ∈ g.nodes, Overlay.Bare n) :
    Coherent (some g) (o.bind g) where
  known := rfl
  live := by
    intro id hid
    have kept : id ∈ g.nodes.map (·.id) := Overlay.mem_ids_prune hid
    exact ⟨g, rfl, List.mem_map.mp kept⟩
  distinct := by
    have kept : (o.prune (g.nodes.map (·.id))).ids.Sublist o.ids :=
      Overlay.ids_keepOnly_sublist o _
    exact h.distinct.sublist kept
  bare := by
    intro g' same
    cases same
    exact bare

theorem Coherent.reset (h : Coherent built o) (keepCompleted : Bool) :
    Coherent built (o.reset keepCompleted) where
  known := h.known
  live := fun id hid => h.live id ((Overlay.ids_keepOnly_sublist o _).subset hid)
  distinct := h.distinct.sublist (Overlay.ids_keepOnly_sublist o _)
  bare := h.bare

section Built

variable {g : Graph} (h : Coherent (some g) o)
include h

theorem Coherent.knows_iff (id : String) : o.knows id = true ↔ ∃ n ∈ g.nodes, n.id = id := by
  unfold Overlay.knows
  rw [h.known]
  simp

theorem Coherent.node_of_entry {id : String} (hid : id ∈ o.ids) : ∃ n ∈ g.nodes, n.id = id := by
  obtain ⟨g', same, node⟩ := h.live id hid
  cases same
  exact node

theorem Coherent.apply_eq : o.apply g = { g with nodes := g.nodes.map o.marked } := by
  have marked : g.nodes.map o.shown = g.nodes.map o.marked := by
    apply List.map_congr_left
    intro n hn
    exact o.shown_eq_marked (h.bare g rfl n hn)
  unfold Overlay.apply
  rw [marked]

end Built

theorem Coherent.no_entries (h : Coherent none o) : o.entries = [] := by
  apply Overlay.entries_eq_nil
  intro id hid
  obtain ⟨g, impossible, _⟩ := h.live id hid
  cases impossible

/-- Why a status of an id is refused, if it is: there is no graph yet, or it has no such node. -/
def refusal (built : Option Graph) (id : String) : Option Error :=
  match built with
  | none => some .notBuilt
  | some g => if ∃ n ∈ g.nodes, n.id = id then none else some (.unknownNode id)

/-- A status is refused or replaces the entry of its id. -/
theorem setStatus_cases {s : Session} (h : Coherent s.built s.overlay) (id : String)
    (status : EditStatus) (message : Option String) (now : Float) :
    (∃ e, refusal s.built id = some e ∧ s.setStatus id status message now = .error e) ∨
    (refusal s.built id = none ∧
      ∃ o, s.setStatus id status message now = .ok { s with overlay := o } ∧ Coherent s.built o ∧
        ∀ other, o.entry? other =
          if other = id then Overlay.entryOf status message now else s.overlay.entry? other) := by
  unfold setStatus
  cases is_built : s.built with
  | none => exact .inl ⟨.notBuilt, rfl, rfl⟩
  | some g =>
      -- The overlay and the graph know the same ids, so its refusals are those of the graph.
      rw [is_built] at h
      have knows := h.knows_iff id
      rcases s.overlay.set_cases id status message now with
        ⟨unknown, refused⟩ | ⟨known, o, accepted, same, entries, ids, nodup⟩
      · left
        have absent : ¬ ∃ n ∈ g.nodes, n.id = id := by
          rw [← knows, unknown]
          exact Bool.false_ne_true
        exact ⟨.unknownNode id, if_neg absent, by rw [refused]⟩
      · right
        have present := knows.mp known
        refine ⟨if_pos present, o, by rw [accepted], ?_, entries⟩
        constructor
        case known => exact same.trans h.known
        case live =>
          intro other hother
          rcases ids other hother with rfl | old
          · exact ⟨g, rfl, present⟩
          · exact h.live other old
        case distinct => exact nodup h.distinct
        case bare => exact h.bare

theorem respond_setStatus [Path.WorkingDirectory] {w : World}
    (h : Coherent w.session.built w.session.overlay) (id : String) (status : EditStatus)
    (message : Option String) :
    (∃ e, refusal w.session.built id = some e ∧
      w.respond (.setStatus id status message) = (w, some e)) ∨
    (refusal w.session.built id = none ∧
      ∃ o, w.respond (.setStatus id status message) =
          ({ w with session := { w.session with overlay := o } }, none) ∧
        Coherent w.session.built o ∧ ∀ other, o.entry? other =
          if other = id then Overlay.entryOf status message w.now
          else w.session.overlay.entry? other) := by
  rcases setStatus_cases h id status message w.now with
    ⟨e, reason, refused⟩ | ⟨no_reason, o, accepted, rest⟩
  · exact .inl ⟨e, reason, by simp only [World.respond, refused]⟩
  · exact .inr ⟨no_reason, o, by simp only [World.respond, accepted], rest⟩

end Invariant

section Runs

/-- A session in its world and a scene that have seen the same events. -/
structure Agrees (w : World) (c : Scene) : Prop where
  root_eq : w.session.root = root
  settings_eq : w.session.settings = settings
  tree_eq : w.tree = c.tree
  now_eq : w.now = c.now
  built_eq : w.session.built = c.last
  coherent : Coherent w.session.built w.session.overlay

variable {root settings} {w : World} {c : Scene}

theorem Agrees.after [Path.WorkingDirectory] (h : Agrees root settings w c) (event : Event) :
    Agrees root settings (w.after event) (c.after root settings event) := by
  cases event with
  | files tree => exact { h with tree_eq := rfl }
  | clock now => exact { h with now_eq := rfl }
  | refresh token =>
      have rebuilt : (w.after (.refresh token)).session.built =
          (c.after root settings (.refresh token)).last := by
        change (w.session.refresh w.tree token w.now).built = _
        unfold refresh Scene.after rootPath
        rw [h.root_eq, h.settings_eq, h.tree_eq, h.now_eq]
      exact { h with
        built_eq := rebuilt
        coherent := h.coherent.bind fun _ hn => build_bare hn }
  | cancel => exact h
  | setStatus id status message =>
      unfold World.after
      rcases respond_setStatus h.coherent id status message with
        ⟨e, _, refused⟩ | ⟨_, o, accepted, coherent, _⟩
      · rw [refused]
        exact h
      · rw [accepted]
        exact { h with coherent := coherent }
  | reset keepCompleted => exact { h with coherent := h.coherent.reset keepCompleted }

theorem Agrees.run [Path.WorkingDirectory] (h : Agrees root settings w c) (events : List Event) :
    Agrees root settings (w.run events) (c.run root settings events) := by
  induction events generalizing w c with
  | nil => exact h
  | cons event events ih => exact ih (h.after event)

end Runs

/-- After every run the session has the graph of the last refresh and shows it with the entries of
the overlay, each of which is the one entry of a node of that graph. A refresh leaves the entries of
the ids that are still there as they are. A status that is refused changes nothing, and any other
one changes one entry. -/
theorem run_shows [Path.WorkingDirectory] (root : Names) (settings : Settings) (tree : Tree)
    (now : Float) (events : List Event) :
    let w := World.run ⟨Session.start root settings, tree, now⟩ events
    let last := (Scene.run root settings ⟨tree, now, none⟩ events).last
    w.session.built = last ∧
    (last = none → w.session.overlay.entries = []) ∧
    (∀ g, last = some g →
      (∀ id ∈ w.session.overlay.ids, ∃ n ∈ g.nodes, n.id = id) ∧ w.session.overlay.ids.Nodup ∧
      w.session.graph = .ok { g with nodes := g.nodes.map w.session.overlay.marked }) ∧
    (∀ token,
      let w' := w.after (.refresh token)
      ∃ g, w'.session.built = some g ∧ ∀ id, w'.session.overlay.entry? id =
        if ∃ n ∈ g.nodes, n.id = id then w.session.overlay.entry? id else none) ∧
    ∀ id status message,
      let w' := w.after (.setStatus id status message)
      w.failure (.setStatus id status message) = refusal last id ∧
      (refusal last id ≠ none → w' = w) ∧
      (refusal last id = none → ∀ other, w'.session.overlay.entry? other =
        if other = id then Overlay.entryOf status message w.now
        else w.session.overlay.entry? other) := by
  intro w last
  have start : Agrees root settings ⟨Session.start root settings, tree, now⟩ ⟨tree, now, none⟩ :=
    ⟨rfl, rfl, rfl, rfl, rfl, Coherent.start⟩
  have agrees : Agrees root settings w _ := start.run events
  have built : w.session.built = last := agrees.built_eq
  have coherent := agrees.coherent
  rw [built] at coherent
  refine ⟨built, ?_, ?_, ?_, ?_⟩
  · intro unbuilt
    rw [unbuilt] at coherent
    exact coherent.no_entries
  · intro g is_built
    rw [is_built] at coherent built
    refine ⟨fun _ hid => coherent.node_of_entry hid, coherent.distinct, ?_⟩
    unfold graph
    rw [built]
    exact congrArg Except.ok coherent.apply_eq
  · intro token
    refine ⟨_, rfl, ?_⟩
    intro id
    exact w.session.overlay.entry?_bind _ id
  · intro id status message
    rw [← built]
    unfold World.failure World.after
    rcases respond_setStatus agrees.coherent id status message with
      ⟨e, reason, refused⟩ | ⟨no_reason, o, accepted, _, entries⟩
    · rw [refused, reason]
      refine ⟨rfl, fun _ => rfl, ?_⟩
      intro impossible
      cases impossible
    · rw [accepted, no_reason]
      refine ⟨rfl, ?_, fun _ => entries⟩
      intro impossible
      exact absurd rfl impossible

end ComponentAtlas.Session
