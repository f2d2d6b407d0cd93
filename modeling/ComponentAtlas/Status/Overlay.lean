import ComponentAtlas.Graph.Basic

/-!
Edit statuses laid over a graph. The graph itself never changes: a view of it shows the statuses.
Once the ids of a graph are known, no other id can get a status.
-/

namespace ComponentAtlas

structure StatusEntry where
  status : EditStatus
  message : Option String
  updatedAt : Float

/-- Statuses by node id, each id at most once, and the ids that may get one. -/
structure Overlay where
  entries : List (String × StatusEntry)
  known : Option (List String)

/-- No node of the graph has this id. -/
structure UnknownNode where
  id : String
deriving DecidableEq

def UnknownNode.message (e : UnknownNode) : String := s!"Unknown component: {e.id}"

namespace Overlay

/-- An overlay without statuses. -/
def new (known : Option (List String)) : Overlay := ⟨[], known⟩

def size (o : Overlay) : Nat := o.entries.length

def entry? (o : Overlay) (id : String) : Option StatusEntry := o.entries.lookup id

def has (o : Overlay) (id : String) : Bool := (o.entry? id).isSome

def statusOf (o : Overlay) (id : String) : EditStatus :=
  match o.entry? id with
  | some e => e.status
  | none => .idle

def messageOf (o : Overlay) (id : String) : Option String := (o.entry? id).bind (·.message)

def keepOnly (o : Overlay) (p : String → StatusEntry → Bool) : Overlay :=
  { o with entries := o.entries.filter fun (id, e) => p id e }

/-- The overlay without statuses for other ids. -/
def prune (o : Overlay) (live : List String) : Overlay := o.keepOnly fun id _ => live.contains id

/-- How many statuses pruning drops. -/
def staleCount (o : Overlay) (live : List String) : Nat := o.size - (o.prune live).size

/-- Only the nodes of `g` are known from now on, and statuses of other ids are dropped. -/
def bind (o : Overlay) (g : Graph) : Overlay :=
  let ids := g.nodes.map (·.id)
  { o.prune ids with known := some ids }

def erase (o : Overlay) (id : String) : Overlay := o.keepOnly fun other _ => other != id

def put (o : Overlay) (id : String) (e : StatusEntry) : Overlay :=
  { o with entries := o.entries.filter (fun (other, _) => other != id) ++ [(id, e)] }

def knows (o : Overlay) (id : String) : Bool := o.known.all (·.contains id)

/-- A new status for an id. To be idle without a message is to have no entry. -/
def set (o : Overlay) (id : String) (status : EditStatus) (message : Option String)
    (now : Float) : Except UnknownNode Overlay :=
  if !o.knows id then .error ⟨id⟩
  else if status = .idle && message.isNone then .ok (o.erase id)
  else .ok (o.put id ⟨status, message, now⟩)

def clear (o : Overlay) : Overlay := { o with entries := [] }

/-- Every node idle again, but for completed ones where these are kept. -/
def reset (o : Overlay) (keepCompleted : Bool) : Overlay :=
  o.keepOnly fun _ e => keepCompleted && e.status = .completed

def shown (o : Overlay) (n : Node) : Node :=
  match o.entry? n.id with
  | none => n
  | some e => { n with status := e.status, message := e.message, modified := some e.updatedAt }

/-- The graph with the statuses filled in. -/
def apply (o : Overlay) (g : Graph) : Graph := { g with nodes := g.nodes.map o.shown }

end Overlay

end ComponentAtlas
