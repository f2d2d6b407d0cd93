import ComponentAtlas.Path
import ComponentAtlas.Text.Utf8

/-!
Trees of files. A tree lists its files and folders by their names from the root; a folder exists
as soon as something is in it. No name is both a file and a folder.
-/

namespace ComponentAtlas

open Text

inductive Item where
  | file (bytes : List UInt8)
  | folder
deriving DecidableEq

/-- The names that lead from the root to a file or folder. -/
abbrev Names := List String

structure Tree where
  entries : List (Names × Item)

namespace Tree

def empty : Tree := ⟨[]⟩

/-- The names of a path, seen from the root. -/
def names [Path.WorkingDirectory] (path : String) : Names := (Path.parts (Path.resolve path)).names

def pathText (names : Names) : String := (Path.Parts.mk 1 names).text

def entry? (t : Tree) (names : Names) : Option Item := t.entries.lookup names

def isStrictPrefix (names below : Names) : Bool := names.isPrefixOf below && names != below

/-- What stands at a path. -/
def item? (t : Tree) (names : Names) : Option Item :=
  match t.entry? names with
  | some item => some item
  | none =>
    if names.isEmpty || t.entries.any (fun e => isStrictPrefix names e.1) then some .folder
    else none

def file? (t : Tree) (names : Names) : Option (List UInt8) :=
  match t.item? names with
  | some (.file bytes) => some bytes
  | _ => none

def isFolder (t : Tree) (names : Names) : Bool := t.item? names == some .folder

def isFile (t : Tree) (names : Names) : Bool := (t.file? names).isSome

/-- The place at the end of a way and the folders that the way passes. -/
def stations (names : Names) : List Names :=
  (List.range names.length).map fun n => names.take (n + 1)

/-- The files and folders below `root`, each once, by their names from there. -/
def placesBelow (t : Tree) (root : Names) : List Names :=
  (t.entries.flatMap fun (names, _) =>
    if isStrictPrefix root names then stations (names.drop root.length) else []).eraseDups

/-- The tree without `names` and everything below. -/
def remove (t : Tree) (names : Names) : Tree :=
  ⟨t.entries.filter fun e => !names.isPrefixOf e.1⟩

/-- The tree with an item at `names`, in the place of what stood there. -/
def put (t : Tree) (names : Names) (item : Item) : Tree :=
  ⟨(t.entries.filter fun e => e.1 != names) ++ [(names, item)]⟩

def putFile (t : Tree) (names : Names) (bytes : List UInt8) : Tree := t.put names (.file bytes)

def putText (t : Tree) (names : Names) (text : String) : Tree := t.putFile names (encodeUtf8 text)

/-- The folder at `names`, which may be there already. -/
def putFolder (t : Tree) (names : Names) : Tree :=
  if t.isFolder names then t else t.put names .folder

/-! Paths that are followed step by step, so that every step must be possible. -/

/-- The folder that a way leads to from the folder `here`. -/
def walk? (t : Tree) (here : Names) : List String → Option Names
  | [] => some here
  | name :: rest =>
    let next := if name == ".." then here.dropLast else here ++ [name]
    if t.isFolder next then walk? t next rest else none

/-- Where a path starts that is seen from the folder `here`. -/
def startOf (here : Names) (path : Path.Parts) : Names := if path.slashes == 0 then here else []

/-- The folder that a path denotes, seen from the folder `here`. -/
def folderAt? (t : Tree) (here : Names) (path : String) : Option Names :=
  if path == "" then none
  else
    let parts := Path.parts path
    t.walk? (startOf here parts) parts.names

/-- Why a file or folder cannot be made. -/
inductive WriteError where
  | fileInTheWay
  | notAFolder
  | isFolder
  | missingFolder
deriving DecidableEq

/-- The folder that a way leads to, the folders on it being made where nothing stands. -/
def makeWay (t : Tree) (here : Names) : List String → Except WriteError (Tree × Names)
  | [] => .ok (t, here)
  | name :: rest =>
    if name == ".." then makeWay t here.dropLast rest
    else
      let next := here ++ [name]
      match t.item? next with
      | some .folder => makeWay t next rest
      | some (.file _) => .error (if rest.isEmpty then .fileInTheWay else .notAFolder)
      | none => makeWay (t.put next .folder) next rest

/-- The text put at the end of a way that leads on from the folder `here`. -/
def writeText (t : Tree) (here : Names) (name : Option String) (text : String) :
    Except WriteError Tree :=
  match name with
  | none => .error .isFolder
  | some name =>
    let target := here ++ [name]
    if name == ".." || t.isFolder target then .error .isFolder else .ok (t.putText target text)

/-- Writes the text of a file and makes the folders above it. -/
def writeMakingFolders (t : Tree) (here : Names) (path : Path.Parts) (text : String) :
    Except WriteError Tree := do
  let (t, folder) ← t.makeWay (startOf here path) path.names.dropLast
  t.writeText folder path.names.getLast? text

/-- Why a way leads to no folder: a file stands on it, or nothing. -/
def wayFault (t : Tree) (here : Names) : List String → WriteError
  | [] => .missingFolder
  | name :: rest =>
    let next := if name == ".." then here.dropLast else here ++ [name]
    if t.isFile next then .notAFolder else wayFault t next rest

/-- Writes the text of a file in a folder that exists. -/
def writeInPlace (t : Tree) (here : Names) (path : Path.Parts) (text : String) :
    Except WriteError Tree :=
  let start := startOf here path
  let way := path.names.dropLast
  match t.walk? start way with
  | some folder => t.writeText folder path.names.getLast? text
  | none => .error (t.wayFault start way)

end Tree

end ComponentAtlas
