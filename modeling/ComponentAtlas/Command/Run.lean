import ComponentAtlas.Command.Basic
import ComponentAtlas.Json
import ComponentAtlas.Session
import ComponentAtlas.Settings.Store
import ComponentAtlas.Terminal.Markup
import ComponentAtlas.Terminal.Table

/-!
Commands carried out: what they print, which files they write, and how they end. What was printed or
written before a failure stays.
-/

namespace ComponentAtlas.Command

open Text Terminal

/-- What a command has done so far. -/
structure Console where
  tree : Tree
  output : String
  errorOutput : String

/-- Why a command does not come to its end. -/
inductive Failure where
  | usage
  | badParameter (message : String)
  | settings (e : Settings.LoadError)
  | notATable
  | noWrittenForm
  | write (e : Tree.WriteError)
  | markup
  | session (e : Session.Error)

inductive Ending where
  | exit (code : Nat)
  | failed (f : Failure)

/-- A command under way, which may end early. -/
abbrev Run := ExceptT Ending (StateM Console)

namespace Run

def fail {α : Type} (f : Failure) : Run α := throw (.failed f)

def exit {α : Type} (code : Nat) : Run α := throw (.exit code)

/-- The result, or the failure that stands for its error. -/
def orFail {α ε : Type} (cause : ε → Failure) : Except ε α → Run α
  | .ok a => pure a
  | .error e => fail (cause e)

def say (line : String) : Run Unit :=
  modify fun c => { c with output := c.output ++ line ++ "\n" }

def complain (line : String) : Run Unit :=
  modify fun c => { c with errorOutput := c.errorOutput ++ line ++ "\n" }

/-- A line whose style tags do not show. -/
def sayStyled (line : String) : Run Unit := do say (← orFail (fun _ => .markup) (shown line))

def currentTree : Run Tree := do return (← get).tree

def putTree (tree : Tree) : Run Unit := modify fun c => { c with tree }

end Run

open Run

variable [Path.WorkingDirectory]

/-- The file of the report where no other is asked for. -/
def reportFile : String := "COMPONENT_MAP.md"

def loadSettings (p : Place) (root : Names) : Run Settings := do
  orFail .settings (Settings.load (← currentTree) p.userFile (some root))

/-- A session that has scanned its workspace. -/
def scanned (p : Place) (root : Names) (settings : Settings) : Run Session := do
  return (Session.start root settings).refresh (← currentTree) Workspace.Token.live p.now

def graphOf (s : Session) : Run Graph := orFail .session s.graph

def openSession (p : Place) (root : Names) (exclude : List String) : Run Session := do
  let s ← scanned p root ((← loadSettings p root).excluding exclude)
  if (← graphOf s).nodes.isEmpty then complain s!"No components found under {s.rootPath}."
  return s

/-- The path of a file as messages show it. -/
def shownPath (path : String) : String := (Path.parts path).text

def writeMakingFolders (p : Place) (path text : String) : Run Unit := do
  let written := (← currentTree).writeMakingFolders p.folder (Path.parts path) text
  putTree (← orFail .write written)

def sayOrWrite (p : Place) (text : String) (output : Option String) (what : String) : Run Unit := do
  match output with
  | none => say text
  | some path =>
    writeMakingFolders p path (text ++ "\n")
    say s!"Wrote {what} to {shownPath path}"

/-- The diagram configuration of the settings with what the options change. -/
def diagramConfig (config : Diagram.Config) (o : MapOptions) :
    Except Diagram.ConfigError Diagram.Config :=
  Diagram.Config.make ((o.direction.map upper).getD config.direction.name) config.theme.name
    (o.withLabels && config.showLabels) (o.maxNodes.getD config.maxNodes)

def runMap (p : Place) (root : Names) (o : MapOptions) : Run Unit := do
  let s ← openSession p root o.exclude
  if o.asJson then sayOrWrite p (← graphOf s).toJson.toText o.output "graph JSON"
  else
    let config ← orFail (.badParameter ·.message) (diagramConfig s.settings.diagram o)
    sayOrWrite p (← orFail .session (s.diagram (some config))) o.output "diagram"

/-- How many names are suggested at most. -/
def maxSuggestions : Nat := 5

/-- Nodes whose names hold what was looked for, in whatever case. -/
def suggestions (g : Graph) (ref : String) : List Node :=
  (g.nodes.filter fun n => contains (lower n.name) (lower ref)).take maxSuggestions

def suggest (g : Graph) (ref : String) : Run Unit := do
  complain s!"❌ Component '{ref}' not found."
  let found := suggestions g ref
  unless found.isEmpty do
    complain "\n💡 Did you mean one of these?"
    for n in found do complain s!"   - {n.name} ({n.kind.name}) {n.id}"

def runFocus (p : Place) (root : Names) (ref : String) (depth : Option Int)
    (exclude : List String) : Run Unit := do
  let s ← openSession p root exclude
  match s.focusDiagram ref depth with
  | .ok text => say text
  | .error (.unknownNode _) =>
    suggest (← graphOf s) ref
    exit 1
  | .error e => fail (.session e)

/-- The larger counts first, and equal ones by name. -/
def ranked (counts : List (String × Nat)) : List (String × Nat) :=
  counts.mergeSort fun a b => b.2 < a.2 || (a.2 == b.2 && decide (a.1 ≤ b.1))

def countTable (title heading : String) (counts : List (String × Nat)) : CountTable :=
  ⟨title, heading, ranked counts⟩

def bold (s : String) : String := styled "bold" s

def runStats (p : Place) (root : Names) (exclude : List String) : Run Unit := do
  let s ← openSession p root exclude
  let stats ← orFail .session s.stats
  let average := Decimal.text stats.averageConnections
  sayStyled ("\n" ++ styled "bold cyan" ("📊 " ++ s.rootPath))
  sayStyled (s!"Components: {bold (toString stats.nodes)}  " ++
    s!"Relationships: {bold (toString stats.edges)}  Avg connections: {bold average}\n")
  let kinds := stats.byKind.map fun (kind, n) => (kind.name, n)
  let languages := stats.byLanguage.map fun (language, n) => (language.name, n)
  for line in (countTable "By Type" "Type" kinds).lines do say line
  for line in (countTable "By Language" "Language" languages).lines do say line

def reportPath (s : Session) (output : Option String) : String :=
  output.getD (Tree.pathText (s.root ++ [reportFile]))

def runReport (p : Place) (root : Names) (output : Option String) (title : String)
    (exclude : List String) : Run Unit := do
  let s ← openSession p root exclude
  let path := reportPath s output
  let written := (← currentTree).makeWay (Tree.startOf p.folder (Path.parts path))
    (Path.parts path).names.dropLast
  putTree (← orFail .write written).1
  writeMakingFolders p path (← orFail .session (s.markdown title))
  say s!"Exported component map to {shownPath path}"

def runErrors (p : Place) (root : Names) (exclude : List String) : Run Unit := do
  let s ← openSession p root exclude
  if s.errors.isEmpty then say "No parse errors."
  else
    for e in s.errors do
      say e.path
      for message in e.errors do say s!"  - {message}"
    say s!"\n{s.errors.length} file(s) with errors."

def runShowSettings (p : Place) (project : Option Names) : Run Unit := do
  let settings ← orFail .settings (Settings.load (← currentTree) p.userFile project)
  sayStyled (styled "dim" s!"# {Tree.pathText p.userFile}")
  match Toml.write? settings.toTable with
  | some text => say text
  | none => fail .noWrittenForm

mutual

/-- A value as it is confirmed. -/
def valueShown : Toml.Value → String
  | .null => "None"
  | .truth b => if b then "True" else "False"
  | .whole n => toString n
  | .number x => Decimal.text x
  | .text s => quoted s
  | .list items => "[" ++ itemsShown items ++ "]"
  | .table entries => "\x7b" ++ entriesShown entries ++ "\x7d"

def itemsShown : List Toml.Value → String
  | [] => ""
  | [v] => valueShown v
  | v :: rest => valueShown v ++ ", " ++ itemsShown rest

def entriesShown : List (String × Toml.Value) → String
  | [] => ""
  | [(key, v)] => quoted key ++ ": " ++ valueShown v
  | (key, v) :: rest => quoted key ++ ": " ++ valueShown v ++ ", " ++ entriesShown rest

end

def unknownSettingText (name : String) : String :=
  let known := join ", " (Setting.all.map (·.name))
  s!"Unknown setting '{name}'. Known settings: {known}"

def succeeded (line : String) : String := styled "green" "✓" ++ " " ++ line

def failed (line : String) : String := styled "red" "✗" ++ " " ++ line

def runSetSetting (p : Place) (name value : String) : Run Unit := do
  match Settings.save (← currentTree) p.userFile name value with
  | .ok saved =>
    putTree saved.tree
    sayStyled (succeeded s!"{name} = {valueShown saved.toValue}")
  | .error (.unknown _) => fail (.badParameter (unknownSettingText name))
  | .error (.refused r) => fail (.badParameter r.message)
  | .error (.unreadable fault) => fail (.badParameter fault.message)
  | .error .notATable => fail .notATable
  | .error (.noWrittenForm emptied) =>
    putTree emptied
    fail .noWrittenForm
  | .error (.unwritable file) =>
    sayStyled (failed (Settings.unwritableText file))
    exit 1

def runResetSettings (p : Place) : Run Unit := do
  let (tree, gone) := Settings.reset (← currentTree) p.userFile
  putTree tree
  if gone then sayStyled (succeeded "Configuration reset to defaults.")
  else
    sayStyled (failed "Could not reset configuration.")
    exit 1

/-- Writes the report and says what is watched. The last line closes a style that no line before it
has open, so no watch ever begins. -/
def runWatch (p : Place) (root : Names) (interval : Option Float) (output : Option String)
    (title : String) : Run Unit := do
  let s ← scanned p root (← loadSettings p root)
  let path := reportPath s output
  let text ← orFail .session (s.markdown title)
  let written := (← currentTree).writeInPlace p.folder (Path.parts path) text
  putTree (← orFail .write written)
  let g ← graphOf s
  let debounce := Decimal.text (interval.getD (s.settings .debounce))
  sayStyled ("\n" ++ styled "bold green" "👀 Watching" ++ " " ++ styled "cyan" s.rootPath ++
    " for changes...")
  sayStyled s!"[dim]  Debounce:  {debounce}s"
  sayStyled s!"  Output:    {shownPath path}"
  sayStyled s!"  Initial:   {g.nodes.length} components, {g.edges.length} relationships"
  sayStyled "  Press Ctrl+C to stop[/dim]\n"

def versionText : String := "codeflow v0.1.0"

def run (p : Place) : Command → Run Unit
  | .version => say versionText
  | .map root options => runMap p root options
  | .focus root ref depth exclude => runFocus p root ref depth exclude
  | .stats root exclude => runStats p root exclude
  | .report root output title exclude => runReport p root output title exclude
  | .errors root exclude => runErrors p root exclude
  | .showSettings project => runShowSettings p project
  | .setSetting name value => runSetSetting p name value
  | .resetSettings => runResetSettings p
  | .watch root interval output title => runWatch p root interval output title

/-- How a command ended, and what it did until then. -/
structure Outcome where
  ending : Ending
  console : Console

omit [Path.WorkingDirectory] in
/-- Carries out the command that the arguments ask for, in the folder of the place. -/
def execute (p : Place) (args : List String) : Outcome :=
  let start : Console := ⟨p.tree, "", ""⟩
  match read p args with
  | .error _ => ⟨.failed .usage, start⟩
  | .ok command =>
    letI := p.directory
    match (run p command).run start with
    | (.ok (), console) => ⟨.exit 0, console⟩
    | (.error ending, console) => ⟨ending, console⟩

end ComponentAtlas.Command
