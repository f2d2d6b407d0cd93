import ComponentAtlas.Graph.Basic

/-!
The part of a graph around one node. It is searched with a queue, breadth first; edges are passed in
both directions, and an id that only edges name is passed like any other.
-/

namespace ComponentAtlas

def ends (edges : List Edge) : List String := edges.flatMap fun e => [e.source, e.target]

/-- The other ends of the edges that touch `id`, in the order of the edges. -/
def neighbours (edges : List Edge) (id : String) : List String :=
  edges.flatMap fun e =>
    (if e.source == id then [e.target] else []) ++ (if e.target == id then [e.source] else [])

theorem neighbours_subset_ends (edges : List Edge) (id : String) :
    ∀ other ∈ neighbours edges id, other ∈ ends edges := by
  intro other h
  simp only [neighbours, List.mem_flatMap, List.mem_append] at h
  obtain ⟨e, he, target | source⟩ := h
  · split at target
    · exact List.mem_flatMap.mpr ⟨e, he, by simp_all⟩
    · cases target
  · split at source
    · exact List.mem_flatMap.mpr ⟨e, he, by simp_all⟩
    · cases source

/-- The ids that were seen and, in the queue, those of them whose neighbours are still to be seen,
each with the number of edges that led to it. -/
structure Search where
  visited : List String
  queue : List (String × Nat)

namespace Search

def start (id : String) : Search := ⟨[id], [(id, 0)]⟩

/-- An id that is seen for the first time goes to the end of the queue. -/
def see (hops : Nat) (s : Search) (id : String) : Search :=
  if s.visited.contains id then s else ⟨s.visited ++ [id], s.queue ++ [(id, hops)]⟩

/-- The steps that a search can still make: no id gets into the queue that was seen before. -/
def stepsLeft (edges : List Edge) (s : Search) : Nat :=
  ((ends edges).filter (!s.visited.contains ·)).length + s.queue.length

theorem stepsLeft_see_le {edges : List Edge} {id : String} (known : id ∈ ends edges) (hops : Nat)
    (s : Search) : (s.see hops id).stepsLeft edges ≤ s.stepsLeft edges := by
  unfold see
  split
  · exact Nat.le_refl _
  · rename_i new
    have unseen : (ends edges).filter (!(s.visited ++ [id]).contains ·) =
        ((ends edges).filter (!s.visited.contains ·)).filter (· != id) := by
      rw [List.filter_filter]
      refine List.filter_congr fun other _ => ?_
      rw [Bool.eq_iff_iff]
      simp [and_comm]
    have fewer := List.length_filter_lt_length_iff_exists (p := (· != id))
      (l := (ends edges).filter (!s.visited.contains ·)) |>.mpr
        ⟨id, List.mem_filter.mpr ⟨known, by simpa using new⟩, by simp⟩
    simp only [stepsLeft, unseen, List.length_append, List.length_singleton]
    omega

theorem stepsLeft_foldl_le {edges : List Edge} {ids : List String}
    (known : ∀ id ∈ ids, id ∈ ends edges) (hops : Nat) (s : Search) :
    (ids.foldl (see hops) s).stepsLeft edges ≤ s.stepsLeft edges := by
  induction ids generalizing s with
  | nil => exact Nat.le_refl _
  | cons id ids ih =>
      rw [List.forall_mem_cons] at known
      exact Nat.le_trans (ih known.2 _) (stepsLeft_see_le known.1 hops s)

theorem stepsLeft_lt_cons (edges : List Edge) (visited : List String) (next : String × Nat)
    (rest : List (String × Nat)) :
    stepsLeft edges ⟨visited, rest⟩ < stepsLeft edges ⟨visited, next :: rest⟩ :=
  Nat.lt_succ_self _

/-- The ids that are seen until the queue is empty. An id that `maxHops` edges led to is passed
over. -/
def run (edges : List Edge) (maxHops : Nat) : Search → List String
  | ⟨visited, []⟩ => visited
  | ⟨visited, (id, hops) :: rest⟩ =>
    if hops ≥ maxHops then run edges maxHops ⟨visited, rest⟩
    else run edges maxHops ((neighbours edges id).foldl (see (hops + 1)) ⟨visited, rest⟩)
termination_by s => s.stepsLeft edges
decreasing_by
  · exact stepsLeft_lt_cons edges visited (id, hops) rest
  · exact Nat.lt_of_le_of_lt (stepsLeft_foldl_le (neighbours_subset_ends edges id) _ _)
      (stepsLeft_lt_cons edges visited (id, hops) rest)

end Search

/-- The part of `g` on the given ids. -/
def Graph.restrict (g : Graph) (ids : List String) : Graph :=
  let nodes := g.nodes.filter fun n => ids.contains n.id
  { g with
    nodes
    edges := g.edges.filter fun e => ids.contains e.source && ids.contains e.target
    languages := g.languages.filter fun l => nodes.any (·.language = l) }

/-- The nodes within `hops` edges of `focus` and the edges among them; nothing where no node has
that id. A number below zero counts as zero. -/
def Graph.around (g : Graph) (focus : String) (hops : Int) : Graph :=
  match g.node? focus with
  | none => { g with nodes := [], edges := [], languages := [] }
  | some _ => g.restrict ((Search.start focus).run g.edges hops.toNat)

end ComponentAtlas
