import ComponentAtlas.Command.Run

/-!
The command line. The names of the files that exist are read from standard input, one a line, so
that a listing can be piped in; everything else is decided by `Command.execute`. The time of a graph
is taken from the environment, which keeps reports reproducible.
-/

namespace ComponentAtlas.Command

open Text

/-- What is said of a failure. -/
def Failure.message : Failure → String
  | .usage => "Usage: codeflow COMMAND [ARGUMENTS]"
  | .badParameter message => s!"Error: {message}"
  | .settings (.unreadable fault) => s!"Error: {fault.message}"
  | .settings .tooLarge => "Error: a setting is too large"
  | .notATable => "Error: a section of the settings file is no table"
  | .noWrittenForm => "Error: a text has no written form in a settings file"
  | .write .fileInTheWay => "Error: a file stands where a folder is needed"
  | .write .notAFolder => "Error: a file stands on the way"
  | .write .isFolder => "Error: a folder stands where a file is to be written"
  | .write .missingFolder => "Error: no such folder"
  | .markup => "Error: a style is closed that is not open"
  | .session e => s!"Error: {e.message}"

partial def inputLines (input : IO.FS.Stream) (lines : List String) : IO (List String) := do
  let line ← input.getLine
  if line.isEmpty then return lines.reverse
  inputLines input (trim line :: lines)

/-- The tree with a file as it is read; one that cannot be read does not exist. -/
def addFile [Path.WorkingDirectory] (t : Tree) (path : String) : IO Tree := do
  match ← (IO.FS.readBinFile path).toBaseIO with
  | .ok bytes => return t.putFile (Tree.names path) bytes.toList
  | .error _ => return t

def writeFile (names : Names) (bytes : List UInt8) : IO Unit := do
  IO.FS.createDirAll (Tree.pathText names.dropLast)
  IO.FS.writeBinFile (Tree.pathText names) ⟨bytes.toArray⟩

/-- Brings the files to what they are after a command. -/
def store (before after : Tree) : IO Unit := do
  for (names, item) in before.entries do
    if item != .folder && (after.item? names).isNone then IO.FS.removeFile (Tree.pathText names)
  for (names, item) in after.entries do
    match item with
    | .file bytes => if before.file? names != some bytes then writeFile names bytes
    | .folder => pure ()

def timeOf (given : Option String) : Float := (given.bind Decimal.float?).getD 0.0

end ComponentAtlas.Command

open ComponentAtlas in
def main (args : List String) : IO UInt32 := do
  let folder := (← IO.getEnv "PWD").getD "/"
  let _here : Path.WorkingDirectory := .ofPath folder
  let ownHome := Path.joined ((← IO.getEnv "HOME").getD "/") ".codeflow"
  let home := (← IO.getEnv "CODEFLOW_HOME").getD ownHome
  let userFile := Path.joined home "config.toml"
  let paths ← Command.inputLines (← IO.getStdin) []
  let listed := paths.map (Path.joined folder)
  let tree ← (userFile :: listed).foldlM Command.addFile
    (Tree.empty.putFolder (Tree.names folder))
  let now := Command.timeOf (← IO.getEnv "SOURCE_DATE_EPOCH")
  let done := Command.execute ⟨Tree.names folder, Tree.names userFile, tree, now⟩ args
  IO.print done.console.output
  IO.eprint done.console.errorOutput
  Command.store tree done.console.tree
  match done.ending with
  | .exit code => return code.toUInt32
  | .failed f =>
    IO.eprintln f.message
    return 2
