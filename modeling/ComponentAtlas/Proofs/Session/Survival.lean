import ComponentAtlas.Proofs.Session
import ComponentAtlas.Proofs.Workspace.Scan

/-!
Which statuses a refresh keeps. The graph that it builds has the ids that the visited files declare,
so an entry stays exactly where a file that the scan gets to declares its id. A file that is still
what it was when the graph was last built declares what it did, but a scan that is stopped may not
get to it, and then the entry is lost although nothing has changed.
-/

namespace ComponentAtlas.Session

open Workspace (Token sourcePlaces extractFile)

/-- The file at a place declares something with this id. -/
def Declares (t : Tree) (place : Names) (id : String) : Prop :=
  ∃ d ∈ (extractFile t place).declarations, d.id = id

section Files

variable {t t' : Tree} {place : Names}

theorem extractFile_congr (same : t'.file? place = t.file? place) :
    extractFile t' place = extractFile t place := by
  unfold Workspace.extractFile
  rw [same]

/-- A file that did not change is a source file as before, whatever became of the others. -/
theorem mem_sourcePlaces_of_unchanged {root : Names} {patterns : List String}
    (h : place ∈ sourcePlaces t root patterns) (same : t'.file? place = t.file? place) :
    place ∈ sourcePlaces t' root patterns := by
  obtain ⟨names, member, rfl⟩ := List.mem_map.mp h
  have source := Workspace.mem_sourceFiles.mp member
  have file : t'.isFile (root ++ names) = true := by
    unfold Tree.isFile
    rw [same]
    exact source.file
  exact List.mem_map_of_mem (Workspace.mem_sourceFiles.mpr { source with file })

theorem mem_build_ids [Path.WorkingDirectory] {byName : Bool} {files : List Extraction}
    {path : String} {now : Float} {id : String} :
    (∃ n ∈ (Graph.build byName files path now).nodes, n.id = id) ↔
      ∃ e ∈ files, ∃ d ∈ e.declarations, d.id = id := by
  rw [build_nodes]
  constructor
  · rintro ⟨n, hn, rfl⟩
    obtain ⟨p, hp, rfl⟩ := List.mem_map.mp hn
    obtain ⟨e, he, offered⟩ := mem_offers_of_mem_placeAll hp
    obtain ⟨d, hd, rfl⟩ := List.mem_map.mp offered
    exact ⟨e, he, d, hd, rfl⟩
  · rintro ⟨e, he, d, hd, rfl⟩
    have key := (mem_placeAll_keys (rootKey path) files (fileKey e.path) d.id).mpr
      ⟨e, he, d, hd, rfl, rfl⟩
    obtain ⟨p, hp, same⟩ := List.mem_map.mp key
    exact ⟨p.node, List.mem_map_of_mem hp, (Prod.ext_iff.mp same).2⟩

/-- What the results of a scan declare is what the files declare that it gets to. -/
theorem declared_in_results {root : Names} {patterns : List String} {token : Token} {id : String} :
    (∃ e ∈ (Workspace.scan t root patterns token).results, ∃ d ∈ e.declarations, d.id = id) ↔
      ∃ place ∈ token.reach t (sourcePlaces t root patterns), Declares t place id := by
  rw [Workspace.scan_eq_onward, Workspace.onward_eq]
  constructor
  · rintro ⟨e, he, declared⟩
    have listed := List.mem_of_mem_filter he
    obtain ⟨place, reached, rfl⟩ := List.mem_map.mp listed
    exact ⟨place, reached, declared⟩
  · rintro ⟨place, reached, d, hd, same⟩
    refine ⟨extractFile t place, ?_, d, hd, same⟩
    refine List.mem_filter.mpr ⟨List.mem_map_of_mem reached, ?_⟩
    have some_declaration := List.ne_nil_of_mem hd
    simp [Extraction.isEmpty, some_declaration]

end Files

section Reading

/-- The files as they are, and as the last refresh read them. -/
structure Recall where
  tree : Tree
  read : Option Tree

def Recall.after (c : Recall) : Event → Recall
  | .files tree => { c with tree }
  | .refresh _ => { c with read := some c.tree }
  | .clock _ | .cancel | .setStatus .. | .reset _ => c

def Recall.run (c : Recall) (events : List Event) : Recall := events.foldl Recall.after c

variable {root : Names} {settings : Settings} {w : World} {c : Recall} {scene : Scene}

variable (root settings) in
def sourcesOf (t : Tree) : List Names := sourcePlaces t root (settings .excludePatterns)

/-- The ids of a graph are those that the files declare which a scan of `t` got to. -/
def ReadFrom (places : List Names) (t : Tree) (g : Graph) : Prop :=
  ∃ token : Token, ∀ id,
    (∃ n ∈ g.nodes, n.id = id) ↔ ∃ place ∈ token.reach t places, Declares t place id

variable (root settings) in
structure Recalls (w : World) (c : Recall) : Prop where
  tree_eq : w.tree = c.tree
  graph : ∀ g, w.session.built = some g →
    ∃ old, c.read = some old ∧ ReadFrom (sourcesOf root settings old) old g

theorem Recalls.of_session (h : Recalls root settings w c) {w' : World} (tree : w'.tree = w.tree)
    (built : w'.session.built = w.session.built) : Recalls root settings w' c where
  tree_eq := tree.trans h.tree_eq
  graph := by
    rw [built]
    exact h.graph

theorem refresh_ids [Path.WorkingDirectory] (agrees : Agrees root settings w scene) (token : Token)
    {g : Graph} (h : (w.after (.refresh token)).session.built = some g) (id : String) :
    (∃ n ∈ g.nodes, n.id = id) ↔
      ∃ place ∈ token.reach w.tree (sourcesOf root settings w.tree), Declares w.tree place id := by
  obtain rfl := Option.some.inj h
  rw [mem_build_ids, declared_in_results, agrees.root_eq, agrees.settings_eq]
  rfl

theorem Recalls.after [Path.WorkingDirectory] (h : Recalls root settings w c)
    (agrees : Agrees root settings w scene) (event : Event) :
    Recalls root settings (w.after event) (c.after event) := by
  cases event with
  | files tree => exact ⟨rfl, h.graph⟩
  | clock now => exact h.of_session rfl rfl
  | refresh token =>
      refine ⟨h.tree_eq, fun g is_built => ⟨w.tree, ?_, token, ?_⟩⟩
      · exact congrArg some h.tree_eq.symm
      · exact refresh_ids agrees token is_built
  | cancel => exact h
  | setStatus id status message =>
      rcases respond_setStatus agrees.coherent id status message with
        ⟨e, _, refused⟩ | ⟨_, o, accepted, _⟩
      · have same : w.after (.setStatus id status message) = w := congrArg Prod.fst refused
        rw [same]
        exact h
      · have same : w.after (.setStatus id status message) =
            { w with session := { w.session with overlay := o } } := congrArg Prod.fst accepted
        exact h.of_session (by rw [same]) (by rw [same])
  | reset keepCompleted => exact h.of_session rfl rfl

theorem Recalls.run [Path.WorkingDirectory] (h : Recalls root settings w c)
    (agrees : Agrees root settings w scene) (events : List Event) :
    Recalls root settings (w.run events) (c.run events) := by
  induction events generalizing w c scene with
  | nil => exact h
  | cons event events ih => exact ih (h.after agrees event) (agrees.after event)

/-- What a refresh does to the entry of an id. -/
theorem entry?_after_refresh [Path.WorkingDirectory] (agrees : Agrees root settings w scene)
    (token : Token) (id : String) :
    let reached := ∃ place ∈ token.reach w.tree (sourcesOf root settings w.tree),
      Declares w.tree place id
    let o := (w.after (.refresh token)).session.overlay
    (reached → o.entry? id = w.session.overlay.entry? id) ∧ (¬ reached → o.entry? id = none) := by
  intro reached o
  obtain ⟨g, built, bound⟩ : ∃ g, (w.after (.refresh token)).session.built = some g ∧
      o = w.session.overlay.bind g := ⟨_, rfl, rfl⟩
  have ids : (∃ n ∈ g.nodes, n.id = id) ↔ reached := refresh_ids agrees token built id
  rw [bound, Overlay.entry?_bind]
  exact ⟨fun found => if_pos (ids.mpr found), fun lost => if_neg fun there => lost (ids.mp there)⟩

theorem Recalls.source_of_entry (h : Recalls root settings w c)
    (agrees : Agrees root settings w scene) {id : String} (hid : id ∈ w.session.overlay.ids) :
    ∃ old, c.read = some old ∧ ∃ place ∈ sourcesOf root settings old, Declares old place id := by
  obtain ⟨g, built, node⟩ := agrees.coherent.live id hid
  obtain ⟨old, read, token, ids⟩ := h.graph g built
  obtain ⟨place, reached, declares⟩ := (ids id).mp node
  exact ⟨old, read, place, token.mem_of_mem_reach reached, declares⟩

end Reading

/-- After every run, an entry outlives a refresh exactly where a file that the scan gets to declares
its id. Every entry has such a file among those that the last refresh read. Where the file has not
changed since, the entry outlives every refresh that is not stopped, and every other one that gets
to the file. -/
theorem refresh_keeps_reached [Path.WorkingDirectory] (root : Names) (settings : Settings)
    (tree : Tree) (now : Float) (events : List Event) :
    let w := World.run ⟨Session.start root settings, tree, now⟩ events
    let read := (Recall.run ⟨tree, none⟩ events).read
    let files := sourcesOf root settings
    let before := Overlay.entry? w.session.overlay
    let after (token : Token) := Overlay.entry? (w.after (.refresh token)).session.overlay
    (∀ token id,
      let reached := ∃ place ∈ token.reach w.tree (files w.tree), Declares w.tree place id
      (reached → after token id = before id) ∧ (¬ reached → after token id = none)) ∧
    ∀ id ∈ w.session.overlay.ids, ∃ old, read = some old ∧
      (∃ place ∈ files old, Declares old place id) ∧
      ∀ place ∈ files old, Declares old place id → w.tree.file? place = old.file? place →
        place ∈ files w.tree ∧ after Token.live id = before id ∧
        ∀ token, place ∈ token.reach w.tree (files w.tree) → after token id = before id := by
  intro w read files before after
  have start : Agrees root settings ⟨Session.start root settings, tree, now⟩ ⟨tree, now, none⟩ :=
    ⟨rfl, rfl, rfl, rfl, rfl, Coherent.start⟩
  have unread : Recalls root settings ⟨Session.start root settings, tree, now⟩ ⟨tree, none⟩ :=
    ⟨rfl, fun _ h => by cases h⟩
  have agrees : Agrees root settings w _ := start.run events
  have recalls : Recalls root settings w _ := unread.run start events
  have refreshed := entry?_after_refresh agrees
  refine ⟨refreshed, ?_⟩
  intro id hid
  obtain ⟨old, is_read, source⟩ := recalls.source_of_entry agrees hid
  refine ⟨old, is_read, source, ?_⟩
  intro place member declares same
  have found : place ∈ files w.tree := mem_sourcePlaces_of_unchanged member same
  have declares' : Declares w.tree place id := by
    unfold Declares
    rwa [extractFile_congr same]
  have kept : ∀ token, place ∈ token.reach w.tree (files w.tree) → after token id = before id :=
    fun token reached => (refreshed token id).1 ⟨place, reached, declares'⟩
  exact ⟨found, kept Token.live (by rwa [Token.reach_live]), kept⟩

def loneClass : Tree := Tree.empty.putText ["proj", "a.py"] "class A:\n"

/-- A refresh that is cancelled before the scan drops the status of a class whose file nobody has
touched, and the next refresh, which finds the class again, shows it without the status. -/
theorem refresh_cancelled_forgets :
    let start : World := ⟨Session.start ["proj"] Settings.standard, loneClass, 0⟩
    let w := start.run [.refresh Token.live, .setStatus "A_qb992f" .editing none]
    let stopped := w.after (.refresh Token.cancelled)
    w.session.overlay.ids = ["A_qb992f"] ∧
    (extractFile w.tree ["proj", "a.py"]).declarations.map (·.id) = ["A_qb992f"] ∧
    stopped.tree = w.tree ∧ stopped.session.overlay.ids = [] ∧
    (stopped.after (.refresh Token.live)).session.overlay.ids = [] := by
  refine ⟨?_, ?_, rfl, ?_, ?_⟩ <;> decide +kernel

end ComponentAtlas.Session
