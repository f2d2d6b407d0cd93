import ComponentAtlas.Extract
import ComponentAtlas.Workspace.Exclusion

/-!
Changes of source files, collected until none has come for a while. All changes that wait are then
handed over together.
-/

namespace ComponentAtlas

/-- What a file system reports: the path that changed, the one it was moved to, and whether these
are folders. -/
structure FileEvent where
  source : Option String
  destination : Option String
  isFolder : Bool

/-- The paths that wait, each once, and the time of the last change that counted. -/
structure Watch where
  root : Path.Parts
  debounce : Float
  pending : List String
  lastEvent : Float

namespace Watch

def start (root : String) (debounce : Float) : Watch := ⟨Path.parts root, debounce, [], 0.0⟩

def isHidden (name : String) : Bool := name.toList.head? == some '.'

/-- The names of a path that decide whether it counts: those below the root, or all of them if it
lies elsewhere. -/
def decidingNames (w : Watch) (path : Path.Parts) : List String :=
  (Path.below? w.root path).getD path.names

/-- A change counts if it is one of a source file and no name is hidden or that of a skipped
folder. -/
def isRelevant (w : Watch) (path : String) : Bool :=
  (languageOf? path).isSome &&
    !(w.decidingNames (Path.parts path)).any fun name =>
      isHidden name || Workspace.skippedFolders.contains name

def note (w : Watch) (now : Float) (path : String) : Watch :=
  if path == "" || !w.isRelevant path then w
  else
    let shown := (Path.parts path).text
    { w with
      pending := if w.pending.contains shown then w.pending else w.pending ++ [shown]
      lastEvent := now }

/-- Both ends of a move are changes of their own. -/
def handle (w : Watch) (now : Float) (e : FileEvent) : Watch :=
  if e.isFolder then w else (e.source.toList ++ e.destination.toList).foldl (note · now) w

def sortedPending (w : Watch) : List String := w.pending.mergeSort fun a b => decide (a ≤ b)

/-- Changes wait, and the last one is long enough ago. -/
def isDue (w : Watch) (now : Float) : Bool :=
  !w.pending.isEmpty && !decide (now - w.lastEvent < w.debounce)

/-- What waits, if it is due, and the watch after handing it over. -/
def flush (w : Watch) (now : Float) : Option (List String) × Watch :=
  if w.isDue now then (some w.sortedPending, { w with pending := [] }) else (none, w)

end Watch

end ComponentAtlas
