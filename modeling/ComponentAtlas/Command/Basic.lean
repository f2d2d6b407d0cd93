import ComponentAtlas.Command.Arguments
import ComponentAtlas.Decimal.Reading
import ComponentAtlas.Report
import ComponentAtlas.Workspace.Tree

/-!
The commands and how they are read from the arguments of a command line. A command names a folder
that exists and numbers that are in range, or it is not read at all.
-/

namespace ComponentAtlas

structure MapOptions where
  exclude : List String
  maxNodes : Option Int
  direction : Option String
  withLabels : Bool
  output : Option String
  asJson : Bool

inductive Command where
  | version
  | map (root : Names) (options : MapOptions)
  | focus (root : Names) (ref : String) (depth : Option Int) (exclude : List String)
  | stats (root : Names) (exclude : List String)
  | report (root : Names) (output : Option String) (title : String) (exclude : List String)
  | errors (root : Names) (exclude : List String)
  | showSettings (project : Option Names)
  | setSetting (name value : String)
  | resetSettings
  | watch (root : Names) (interval : Option Float) (output : Option String) (title : String)

namespace Command

/-- Where and when a command runs: the folder that relative paths start from, the settings file of
the user, all files, and the time. -/
structure Place where
  folder : Names
  userFile : Names
  tree : Tree
  now : Float

@[reducible]
def Place.directory (p : Place) : Path.WorkingDirectory := .ofPath (Tree.pathText p.folder)

def excludeOption : OptionForm := ⟨"exclude", some 'e', true⟩
def outputOption : OptionForm := ⟨"output", some 'o', true⟩
def titleOption : OptionForm := ⟨"title", some 't', true⟩

def mainOptions : List OptionForm := [⟨"version", some 'v', false⟩, ⟨"verbose", some 'V', false⟩]

def mapOptions : List OptionForm := [
  excludeOption, ⟨"max-nodes", some 'n', true⟩, ⟨"direction", some 'd', true⟩,
  ⟨"no-labels", none, false⟩, outputOption, ⟨"json", none, false⟩]

def focusOptions : List OptionForm := [⟨"depth", some 'd', true⟩, excludeOption]

def watchOptions : List OptionForm := [⟨"interval", some 'i', true⟩, outputOption, titleOption]

def required {α : Type} : Option α → Except UsageError α
  | some a => .ok a
  | none => .error .mk

def rootAt (p : Place) (path : String) : Except UsageError Names :=
  required (p.tree.folderAt? p.folder path)

/-- A whole number that is not below the least one. -/
def wholeFrom (least : Int) (given : String) : Except UsageError Int :=
  match Decimal.whole? given with
  | .ok n => if n < least then .error .mk else .ok n
  | .error _ => .error .mk

def seconds (given : String) : Except UsageError Float := do
  let x ← required (Decimal.float? given)
  if x < 0.0 then .error .mk else .ok x

/-- An optional option, read by `f` where it is given. -/
def optionally {α : Type} (f : String → Except UsageError α) :
    Option String → Except UsageError (Option α)
  | none => .ok none
  | some given => (f given).map some

def titleOf (a : Arguments) : String := (a.value? "title").getD Report.defaultTitle

/-- The root of a command that has no other words. -/
def onlyRoot (p : Place) (a : Arguments) : Except UsageError Names :=
  match a.words with
  | [path] => rootAt p path
  | _ => .error .mk

def readMap (p : Place) (args : List String) : Except UsageError Command := do
  let a ← readArguments mapOptions false args
  let root ← onlyRoot p a
  return .map root {
    exclude := a.values "exclude"
    maxNodes := ← optionally (wholeFrom 1) (a.value? "max-nodes")
    direction := a.value? "direction"
    withLabels := !a.has "no-labels"
    output := a.value? "output"
    asJson := a.has "json" }

def readFocus (p : Place) (args : List String) : Except UsageError Command := do
  let a ← readArguments focusOptions false args
  match a.words with
  | [path, ref] =>
    let depth ← optionally (wholeFrom 0) (a.value? "depth")
    return .focus (← rootAt p path) ref depth (a.values "exclude")
  | _ => .error .mk

def readStats (p : Place) (args : List String) : Except UsageError Command := do
  let a ← readArguments [excludeOption] false args
  return .stats (← onlyRoot p a) (a.values "exclude")

def readReport (p : Place) (args : List String) : Except UsageError Command := do
  let a ← readArguments [outputOption, titleOption, excludeOption] false args
  return .report (← onlyRoot p a) (a.value? "output") (titleOf a) (a.values "exclude")

def readErrors (p : Place) (args : List String) : Except UsageError Command := do
  let a ← readArguments [excludeOption] false args
  return .errors (← onlyRoot p a) (a.values "exclude")

def readShowSettings (p : Place) (args : List String) : Except UsageError Command := do
  let a ← readArguments [] false args
  match a.words with
  | [] => return .showSettings none
  | [path] => return .showSettings (some (← rootAt p path))
  | _ => .error .mk

def readSetSetting (args : List String) : Except UsageError Command := do
  match (← readArguments [] false args).words with
  | [name, value] => return .setSetting name value
  | _ => .error .mk

def readResetSettings (args : List String) : Except UsageError Command := do
  match (← readArguments [] false args).words with
  | [] => return .resetSettings
  | _ => .error .mk

def readWatch (p : Place) (args : List String) : Except UsageError Command := do
  let a ← readArguments watchOptions false args
  let path ← match a.words with
    | [] => pure "."
    | [path] => pure path
    | _ => .error .mk
  let root ← rootAt p path
  let interval ← optionally seconds (a.value? "interval")
  return .watch root interval (a.value? "output") (titleOf a)

/-- A command of a group; the group has no options of its own. -/
def readSettingsCommand (p : Place) (args : List String) : Except UsageError Command := do
  match (← readArguments [] true args).words with
  | "show" :: rest => readShowSettings p rest
  | "set" :: rest => readSetSetting rest
  | "reset" :: rest => readResetSettings rest
  | _ => .error .mk

def readWatchCommand (p : Place) (args : List String) : Except UsageError Command := do
  match (← readArguments [] true args).words with
  | "start" :: rest => readWatch p rest
  | _ => .error .mk

/-- The command that the arguments ask for. To be asked for the version wins over any command. -/
def read (p : Place) (args : List String) : Except UsageError Command := do
  let a ← readArguments mainOptions true args
  if a.has "version" then return .version
  match a.words with
  | "map" :: rest => readMap p rest
  | "focus" :: rest => readFocus p rest
  | "stats" :: rest => readStats p rest
  | "export" :: rest => readReport p rest
  | "errors" :: rest => readErrors p rest
  | "config" :: rest => readSettingsCommand p rest
  | "watch" :: rest => readWatchCommand p rest
  | _ => .error .mk

end Command

end ComponentAtlas
