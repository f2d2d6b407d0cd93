import ComponentAtlas.Settings.Layers
import ComponentAtlas.Toml.Reader
import ComponentAtlas.Toml.Writer
import ComponentAtlas.Workspace.Tree

/-!
Settings in files: one file of the user, and one in each project that is laid over it. Saving a
setting changes one key of the user's file and keeps all others.
-/

namespace ComponentAtlas.Settings

open Text Toml

/-- The name of the settings file of a project, in its root. -/
def projectFile : String := ".codeflow.toml"

/-- The settings files that count, the user's first. -/
def files (userFile : Names) (project : Option Names) : List Names :=
  userFile :: (project.map (· ++ [projectFile])).toList

/-- Why settings cannot be loaded. -/
inductive LoadError where
  | unreadable (fault : Utf8Fault)
  | tooLarge
deriving DecidableEq

section Reading

variable (parse : List Char → Option Table)

/-- The table in a file whose text is read by `parse`. A file that is missing or that is no settings
file counts as empty. -/
def readTableBy (t : Tree) (file : Names) : Except Utf8Fault Table :=
  match t.file? file with
  | none => .ok []
  | some bytes => (readText bytes).map fun s => (parse s).getD []

def readLayerBy (t : Tree) (file : Names) : Except LoadError Table :=
  match readTableBy parse t file with
  | .ok table => .ok table
  | .error fault => .error (.unreadable fault)

/-- The settings for a project, or those of the user alone, from files whose texts are read by
`parse`. -/
def loadBy (t : Tree) (userFile : Names) (project : Option Names) : Except LoadError Settings := do
  match ofLayers (← (files userFile project).mapM (readLayerBy parse t)) with
  | .ok settings => .ok settings
  | .error _ => .error .tooLarge

end Reading

def readTable (t : Tree) (file : Names) : Except Utf8Fault Table := readTableBy Toml.read? t file

def load (t : Tree) (userFile : Names) (project : Option Names) : Except LoadError Settings :=
  loadBy Toml.read? t userFile project

/-- Why a setting is not saved. Where the new table has no written form, the file is left empty. -/
inductive SaveError where
  | unknown (e : Setting.Unknown)
  | refused (r : Setting.Refusal)
  | unreadable (fault : Utf8Fault)
  | notATable
  | unwritable (file : Names)
  | noWrittenForm (emptied : Tree)

/-- A setting with the value that was saved, and the files after that. -/
structure Saved where
  setting : Setting
  value : setting.Carrier
  tree : Tree

def Saved.toValue (s : Saved) : Value := s.setting.toValue s.value

/-- The table with a setting in its group. The group must not hold anything but a table. -/
def put? (table : Table) (s : Setting) (v : s.Carrier) : Option Table :=
  (table.tableAt? s.group).map fun entries =>
    Table.put table s.group (.table (Table.put entries s.key (s.toValue v)))

/-- A step of saving that fails leaves the files as the steps before it left them. -/
abbrev Saving := ExceptT SaveError (StateM Tree)

section Writing

variable (parse : List Char → Option Table) (render : Table → Option String)

/-- Writes the user's file with what `render` makes of the table. The file is opened first. -/
def writeTableBy (userFile : Names) (table : Table) : Saving Unit := do
  let text? := render table
  match (← get).writeMakingFolders [] ⟨1, userFile⟩ (text?.getD "") with
  | .error _ => throw (.unwritable userFile)
  | .ok tree =>
    set tree
    if text?.isNone then throw (.noWrittenForm tree)

/-- Saves what was typed for the setting with a dotted name, in a file that is read by `parse` and
written by `render`. -/
def saveBy (userFile : Names) (dotted given : String) : Saving ((s : Setting) × s.Carrier) := do
  let s ← MonadExcept.ofExcept ((Setting.ofName dotted).mapError .unknown)
  let v ← MonadExcept.ofExcept ((s.read given).mapError .refused)
  let table ← MonadExcept.ofExcept ((readTableBy parse (← get) userFile).mapError .unreadable)
  match put? table s v with
  | none => throw .notATable
  | some table =>
    writeTableBy render userFile table
    return ⟨s, v⟩

end Writing

def save (t : Tree) (userFile : Names) (dotted given : String) : Except SaveError Saved :=
  match (saveBy Toml.read? Toml.write? userFile dotted given).run.run t with
  | (.ok ⟨s, v⟩, tree) => .ok ⟨s, v, tree⟩
  | (.error e, _) => .error e

def unwritableText (file : Names) : String := s!"Could not write {Tree.pathText file}"

/-- The files without the user's settings file, and whether it is gone: a folder in its place
stays. -/
def reset (t : Tree) (userFile : Names) : Tree × Bool :=
  match t.item? userFile with
  | none => (t, true)
  | some .folder => (t, false)
  | some (.file _) => (t.remove userFile, true)

end ComponentAtlas.Settings
