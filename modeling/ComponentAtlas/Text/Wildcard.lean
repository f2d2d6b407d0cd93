import ComponentAtlas.Text.Pieces

/-!
Wildcard patterns over whole texts: `*` stands for any text, `?` for any character, and a set in
square brackets for one of its characters. A bracket that is not closed stands for itself.
-/

namespace ComponentAtlas.Text

/-- One item of a set: the characters from `low` to `high`. -/
structure CharRange where
  low : Char
  high : Char
deriving DecidableEq

inductive WildcardPart where
  | text
  | anyChar
  | oneOf (negated : Bool) (ranges : List CharRange)
  | exactly (c : Char)
deriving DecidableEq

def CharRange.single (c : Char) : CharRange := ⟨c, c⟩

def CharRange.holds (r : CharRange) (c : Char) : Bool := r.low ≤ c && c ≤ r.high

/-- The text up to the first closing bracket and the text after it. -/
def closeSet? : List Char → Option (List Char × List Char)
  | [] => none
  | c :: rest =>
    if c == ']' then some ([], rest)
    else (closeSet? rest).map fun (body, after) => (c :: body, after)

/-- The inside of a set, the text after its opening bracket, and what follows the closing one.
A closing bracket in front of everything else, an exclamation mark apart, belongs to the set. -/
def setBody? : List Char → Option (List Char × List Char)
  | '!' :: ']' :: rest => (closeSet? rest).map fun (body, after) => ('!' :: ']' :: body, after)
  | ']' :: rest => (closeSet? rest).map fun (body, after) => (']' :: body, after)
  | s => closeSet? s

theorem closeSet?_length {s body after : List Char} (h : closeSet? s = some (body, after)) :
    after.length < s.length := by
  induction s generalizing body with
  | nil => simp [closeSet?] at h
  | cons c rest ih =>
    by_cases hc : c == ']'
    · simp only [closeSet?, hc, if_true, Option.some.injEq, Prod.mk.injEq] at h
      simp [h.2]
    · simp only [closeSet?, hc, Bool.false_eq_true, if_false, Option.map_eq_some_iff] at h
      obtain ⟨⟨b, a⟩, ha, he⟩ := h
      simp only [Prod.mk.injEq] at he
      have := ih (he.2 ▸ ha)
      simp only [List.length_cons]
      omega

theorem setBody?_length {s body after : List Char} (h : setBody? s = some (body, after)) :
    after.length < s.length := by
  unfold setBody? at h
  split at h
  · simp only [Option.map_eq_some_iff, Prod.mk.injEq] at h
    obtain ⟨⟨b, a⟩, ha, -, rfl⟩ := h
    have := closeSet?_length ha
    simp only [List.length_cons]
    omega
  · simp only [Option.map_eq_some_iff, Prod.mk.injEq] at h
    obtain ⟨⟨b, a⟩, ha, -, rfl⟩ := h
    have := closeSet?_length ha
    simp only [List.length_cons]
    omega
  · exact closeSet?_length h

/-- The chunks of a set between the hyphens that make ranges. Such a hyphen stands after at least
`skip` characters of its chunk; all other hyphens are characters of the set. -/
def chunksFrom (skip : Nat) (chunk : List Char) : List Char → List (List Char)
  | [] => [chunk.reverse]
  | c :: rest =>
    if c == '-' && skip == 0 then chunk.reverse :: chunksFrom 2 [] rest
    else chunksFrom (skip - 1) (c :: chunk) rest

/-- A hyphen that nothing follows belongs to the chunk before it. -/
def foldLastHyphen : List (List Char) → List (List Char)
  | [chunk, []] => [chunk ++ ['-']]
  | chunk :: rest => chunk :: foldLastHyphen rest
  | [] => []

/-- Chunks whose range would run downwards are joined without its two ends. -/
def joinDownward : List (List Char) → List (List Char)
  | [] => []
  | chunk :: rest =>
    match joinDownward rest with
    | [] => [chunk]
    | next :: more =>
      match chunk.getLast?, next.head? with
      | some low, some high =>
        if high < low then (chunk.dropLast ++ next.drop 1) :: more else chunk :: next :: more
      | _, _ => chunk :: next :: more

/-- The chunks of the inside of a set. -/
def setChunks (body : List Char) : List (List Char) :=
  let lead := if body.head? == some '!' then 2 else 1
  joinDownward (foldLastHyphen (chunksFrom lead [] body))

/-- The ranges of chunks: each character alone, and one range where two chunks meet. -/
def chunkRanges : List (List Char) → List CharRange
  | [] => []
  | chunk :: rest =>
    let between := match chunk.getLast?, rest with
      | some low, (high :: _) :: _ => [CharRange.mk low high]
      | _, _ => []
    chunk.map CharRange.single ++ between ++ chunkRanges rest

/-- The set with the given inside; one without characters fits nothing, or anything if negated. -/
def setPart (body : List Char) : WildcardPart :=
  match setChunks body with
  | ('!' :: chunk) :: rest => .oneOf true (chunkRanges (chunk :: rest))
  | chunks => .oneOf false (chunkRanges chunks)

def wildcardParts (s : List Char) : List WildcardPart :=
  match s with
  | [] => []
  | c :: rest =>
    if c == '*' then .text :: wildcardParts rest
    else if c == '?' then .anyChar :: wildcardParts rest
    else if c == '[' then
      match _h : setBody? rest with
      | none => .exactly c :: wildcardParts rest
      | some (body, after) => setPart body :: wildcardParts after
    else .exactly c :: wildcardParts rest
termination_by s.length
decreasing_by
  all_goals simp only [List.length_cons]
  all_goals first
    | omega
    | have := setBody?_length ‹_›
      omega

/-- Whether some end part of the text, be it all or nothing of it, satisfies `p`. -/
def anyEnd (p : List Char → Bool) : List Char → Bool
  | [] => p []
  | c :: rest => p (c :: rest) || anyEnd p rest

def fitsParts : List WildcardPart → List Char → Bool
  | [], s => s.isEmpty
  | .text :: ps, s => anyEnd (fitsParts ps) s
  | .anyChar :: ps, s => match s with
    | [] => false
    | _ :: rest => fitsParts ps rest
  | .oneOf negated ranges :: ps, s => match s with
    | [] => false
    | c :: rest => (ranges.any (·.holds c) != negated) && fitsParts ps rest
  | .exactly x :: ps, s => match s with
    | [] => false
    | c :: rest => x == c && fitsParts ps rest

/-- Whether the pattern fits the whole text. -/
def fits (pattern s : String) : Bool := fitsParts (wildcardParts pattern.toList) s.toList

end ComponentAtlas.Text
