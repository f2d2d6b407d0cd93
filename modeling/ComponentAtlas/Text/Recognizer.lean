import ComponentAtlas.Text.Letters

/-!
Recognizers of text by pattern. A recognizer offers its ways of matching at a place one after
another, the preferred one first, until one is accepted by what follows it. A search takes the
leftmost place with an accepted way. So an alternative that is preferred but lets the rest fail
gives way to the next one.
-/

namespace ComponentAtlas.Text

/-- A place in a text: what stands just before, how much stands before, and what follows. -/
structure Cursor where
  before : Option Char
  offset : Nat
  rest : List Char
deriving DecidableEq

def Cursor.start (s : List Char) : Cursor := ⟨none, 0, s⟩

/-- A stretch of text, kept as the place where it starts and its length. -/
structure Span where
  start : Cursor
  length : Nat
deriving DecidableEq

def Span.chars (s : Span) : List Char := s.start.rest.take s.length

def Span.text (s : Span) : String := String.ofList s.chars

/-- `offer c accept` is the first answer of `accept` to a way of matching at `c`. -/
structure Recognizer (α : Type) where
  offer : {β : Type} → Cursor → (α → Cursor → Option β) → Option β

namespace Recognizer

variable {α : Type}

instance : Monad Recognizer where
  pure a := ⟨fun c accept => accept a c⟩
  bind r f := ⟨fun c accept => r.offer c fun a d => (f a).offer d accept⟩

def either (r s : Recognizer α) : Recognizer α :=
  ⟨fun c accept => (r.offer c accept).orElse fun _ => s.offer c accept⟩

instance : OrElse (Recognizer α) where
  orElse r s := either r (s ())

/-- One character of a class. -/
def oneOf (p : Char → Bool) : Recognizer Char :=
  ⟨fun c accept => match c.rest with
    | [] => none
    | x :: rest => if p x then accept x ⟨some x, c.offset + 1, rest⟩ else none⟩

def exactly (x : Char) : Recognizer Unit := do
  let _ ← oneOf (· == x)

/-- The place after `needle`, where it stands at `c`. -/
def afterLiteral : List Char → Cursor → Option Cursor
  | [], c => some c
  | n :: needle, c =>
    match c.rest with
    | [] => none
    | x :: rest => if x == n then afterLiteral needle ⟨some x, c.offset + 1, rest⟩ else none

def literal (s : String) : Recognizer Unit :=
  let needle := s.toList
  ⟨fun c accept => match afterLiteral needle c with
    | some d => accept () d
    | none => none⟩

/-- One of the texts, the earlier ones preferred. -/
def anyOf : List String → Recognizer Unit
  | [] => ⟨fun _ _ => none⟩
  | s :: rest => literal s <|> anyOf rest

/-- The places after zero, one, two, … characters of the class, put in front of `found`. -/
def stepsOnto (p : Char → Bool) (before : Option Char) (offset : Nat) :
    List Char → List Cursor → List Cursor
  | [], found => ⟨before, offset, []⟩ :: found
  | x :: rest, found =>
    if p x then stepsOnto p (some x) (offset + 1) rest (⟨before, offset, x :: rest⟩ :: found)
    else ⟨before, offset, x :: rest⟩ :: found

/-- The places after characters of the class, the last one first. -/
def steps (p : Char → Bool) (c : Cursor) : List Cursor := stepsOnto p c.before c.offset c.rest []

/-- Any number of characters of a class, as many as possible preferred. -/
def many (p : Char → Bool) : Recognizer Unit :=
  ⟨fun c accept => (steps p c).findSome? (accept ())⟩

/-- At least one character of a class, as many as possible preferred. -/
def many1 (p : Char → Bool) : Recognizer Unit := do
  let _ ← oneOf p
  many p

/-- At least one character of a class, as few as possible preferred. -/
def fewest1 (p : Char → Bool) : Recognizer Unit := do
  let _ ← oneOf p
  ⟨fun c accept => (steps p c).reverse.findSome? (accept ())⟩

def optional (r : Recognizer α) : Recognizer (Option α) :=
  ⟨fun c accept => (r.offer c fun a d => accept (some a) d).orElse fun _ => accept none c⟩

/-- Repeats `r` as often as the first list has elements; an empty match of `r` is not repeated. -/
def repeatAtMost {β : Type} (r : Recognizer α) (accept : Unit → Cursor → Option β) :
    List Char → Cursor → Option β
  | [], c => accept () c
  | _ :: budget, c =>
    (r.offer c fun _ d =>
      if d.offset == c.offset then none else repeatAtMost r accept budget d).orElse
      fun _ => accept () c

/-- Any number of matches of `r`, as many as possible preferred. No more of them can follow than
characters are left. -/
def repeated (r : Recognizer α) : Recognizer Unit :=
  ⟨fun c accept => repeatAtMost r accept c.rest c⟩

def lineStart : Recognizer Unit :=
  ⟨fun c accept => if c.before.all (· == '\n') then accept () c else none⟩

def lineEnd : Recognizer Unit :=
  ⟨fun c accept => if c.rest.head?.all (· == '\n') then accept () c else none⟩

/-- A place where a word begins or ends. -/
def wordEdge : Recognizer Unit :=
  ⟨fun c accept =>
    if c.before.any isWord != c.rest.head?.any isWord then accept () c else none⟩

def matchesAt (r : Recognizer α) (c : Cursor) : Bool := (r.offer c fun _ _ => some ()).isSome

def notFollowedBy (r : Recognizer α) : Recognizer Unit :=
  ⟨fun c accept => if r.matchesAt c then none else accept () c⟩

/-- The stretch that `r` matches. -/
def captured (r : Recognizer α) : Recognizer Span :=
  ⟨fun c accept => r.offer c fun _ d => accept ⟨c, d.offset - c.offset⟩ d⟩

def blanks : Recognizer Unit := many isBlank

def blanks1 : Recognizer Unit := many1 isBlank

def word : Recognizer Span := captured (many1 isWord)

/-! Searching. -/

/-- A match with the places where it starts and stops. -/
structure Found (α : Type) where
  value : α
  start : Cursor
  stop : Cursor

def Found.span (m : Found α) : Span := ⟨m.start, m.stop.offset - m.start.offset⟩

def at? (r : Recognizer α) (c : Cursor) : Option (Found α) :=
  r.offer c fun a d => some ⟨a, c, d⟩

def firstFrom (r : Recognizer α) (before : Option Char) (offset : Nat) :
    List Char → Option (Found α)
  | [] => r.at? ⟨before, offset, []⟩
  | x :: rest =>
    match r.at? ⟨before, offset, x :: rest⟩ with
    | some m => some m
    | none => firstFrom r (some x) (offset + 1) rest

/-- The leftmost match. -/
def first? (r : Recognizer α) (s : List Char) : Option (Found α) := firstFrom r none 0 s

def occurs (r : Recognizer α) (s : List Char) : Bool := (r.first? s).isSome

/-- The matches from here on that start at `resume` or later, none reaching into the next. -/
def allFrom (r : Recognizer α) (resume : Nat) (before : Option Char) (offset : Nat) :
    List Char → List (Found α)
  | [] => if offset < resume then [] else (r.at? ⟨before, offset, []⟩).toList
  | x :: rest =>
    if offset < resume then allFrom r resume (some x) (offset + 1) rest
    else match r.at? ⟨before, offset, x :: rest⟩ with
      | some m => m :: allFrom r m.stop.offset (some x) (offset + 1) rest
      | none => allFrom r resume (some x) (offset + 1) rest

/-- All matches from left to right, each starting no earlier than the one before it stops. -/
def all (r : Recognizer α) (s : List Char) : List (Found α) := allFrom r 0 none 0 s

/-- The pieces of the text before, between and after the given matches. -/
def piecesAround (rest : List Char) (offset : Nat) : List (Found α) → List (List Char)
  | [] => [rest]
  | m :: ms => rest.take (m.start.offset - offset) :: piecesAround m.stop.rest m.stop.offset ms

def splitBy (r : Recognizer α) (s : List Char) : List (List Char) := piecesAround s 0 (r.all s)

end Recognizer

end ComponentAtlas.Text
