import ComponentAtlas.Text.Pieces

/-!
Paths with `/` between names. A path starts with no slash, with one, or with exactly two, which
stay apart from one; any other number counts as one. Paths are handled as text: nothing is looked
up, and relative paths count from a directory that is given with everything that needs it.
-/

namespace ComponentAtlas.Path

open Text

/-- A path as its leading slashes and the names after them. -/
structure Parts where
  slashes : Nat
  names : List String
deriving DecidableEq

def leadingSlashes (s : String) : Nat :=
  let n := (s.toList.takeWhile (· == '/')).length
  if n ≤ 2 then n else 1

def pieces (s : String) : List String := splitText '/' s

/-- Empty names and single dots stand for the place they are in. -/
def isHere (name : String) : Bool := name == "" || name == "."

def parts (s : String) : Parts := ⟨leadingSlashes s, (pieces s).filter (!isHere ·)⟩

def slashText (n : Nat) : String := String.ofList (List.replicate n '/')

def Parts.text (p : Parts) : String :=
  match p.slashes, p.names with
  | 0, [] => "."
  | n, names => slashText n ++ join "/" names

/-- One name after the names of `stack`, the last one first. Going up leaves the last name; where
there is none it is kept in a relative path and has no effect in an absolute one. -/
def climb (rooted : Bool) (stack : List String) (name : String) : List String :=
  if isHere name then stack
  else if name == ".." then
    match stack with
    | [] => if rooted then [] else [".."]
    | top :: below => if top == ".." then ".." :: top :: below else below
  else name :: stack

def climbAll (rooted : Bool) (names : List String) : List String :=
  (names.foldl (climb rooted) []).reverse

/-- The names of a path with every way up that can be taken out taken out. -/
def normalParts (s : String) : Parts :=
  let slashes := leadingSlashes s
  ⟨slashes, climbAll (slashes != 0) (pieces s)⟩

def normalize (s : String) : String := (normalParts s).text

def isAbsolute (s : String) : Bool := s.toList.head? == some '/'

/-- `s` seen from the directory `base`. -/
def joined (base s : String) : String :=
  if isAbsolute s then s
  else if base.toList.getLast?.all (· == '/') then base ++ s
  else base ++ "/" ++ s

/-- The directory from which relative paths count. It is an absolute path with one leading slash. -/
class WorkingDirectory where
  path : String
  rooted : leadingSlashes path = 1

namespace WorkingDirectory

@[reducible]
def root : WorkingDirectory := ⟨"/", rfl⟩

/-- The directory at a path, or the root directory where the path cannot be one. -/
@[reducible]
def ofPath (s : String) : WorkingDirectory :=
  if h : leadingSlashes s = 1 then ⟨s, h⟩ else root

end WorkingDirectory

/-- Where no directory is given, relative paths count from the root directory. -/
instance (priority := low) : WorkingDirectory := .root

/-- A relative path as seen from the working directory. -/
def absolute [here : WorkingDirectory] (s : String) : String := normalize (joined here.path s)

/-- The place that `s` denotes from the directory `base`, with one leading slash. -/
def resolveFrom (base s : String) : String :=
  (Parts.mk 1 (climbAll true (pieces (joined base s)))).text

def resolve [here : WorkingDirectory] (s : String) : String := resolveFrom here.path s

def forwardSlashes (s : String) : String := String.ofList (replaceChar '\\' '/' s.toList)

/-- The form in which the graph compares paths: normal, with forward slashes only. -/
def standard (s : String) : String := forwardSlashes (normalize s)

/-- What is left of both lists after their common start. -/
def dropCommon : List String → List String → List String × List String
  | a :: as, b :: bs => if a == b then dropCommon as bs else (a :: as, b :: bs)
  | as, bs => (as, bs)

/-- The way from the directory `start` to `target`. -/
def relative [WorkingDirectory] (target start : String) : String :=
  let names (s : String) : List String := (pieces (absolute s)).filter (· != "")
  let (up, down) := dropCommon (names start) (names target)
  match up.map (fun _ => "..") ++ down with
  | [] => "."
  | way => join "/" way

/-- The part of `names` below the directory `root`, if it lies there. -/
def below? (root target : Parts) : Option (List String) :=
  if root.slashes == target.slashes && root.names.isPrefixOf target.names then
    some (target.names.drop root.names.length)
  else none

def fileName (s : String) : String := (parts s).names.getLast?.getD ""

/-- The name of the directory that holds the path. -/
def parentName (s : String) : String := (parts s).names.dropLast.getLast?.getD ""

/-- The last dot of a name and what follows, where something stands on both sides. -/
def suffixOf (name : String) : String :=
  let after := lastPiece '.' name.toList
  if after.isEmpty || name.length ≤ after.length + 1 then ""
  else String.ofList ('.' :: after)

def suffix (s : String) : String := suffixOf (fileName s)

/-- The text up to the last slash, without the slashes at its end unless it is all slashes. -/
def directory (s : String) : String :=
  let head := (s.toList.reverse.dropWhile (· != '/')).reverse
  if head.all (· == '/') then String.ofList head
  else String.ofList (trimRightOf (· == '/') head)

/-- The path without the extension of its last name; dots in front of a name begin none. -/
def withoutExtension (s : String) : String :=
  let name := lastPiece '/' s.toList
  let after := lastPiece '.' name
  let stem := name.take (name.length - after.length - 1)
  if name.contains '.' && stem.any (· != '.') then
    String.ofList (s.toList.take (s.length - after.length - 1))
  else s

end ComponentAtlas.Path
